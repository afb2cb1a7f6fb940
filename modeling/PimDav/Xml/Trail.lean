/-!
# Reading up to the first fault

A document is read in stages, and each stage may meet a fault.  A `Trail` keeps
what a stage delivered before its first fault, and that fault.  The next stage
sees the items first, so that a fault of its own in one of them counts before a
fault that comes later in the document.
-/

namespace PimDav
namespace Xml

/-- Why a document cannot be read. -/
inductive Problem where
  /-- The markup itself is broken. -/
  | brokenMarkup
  | badAttribute
  | badAttributeValue
  /-- A closing tag where no element is open. -/
  | unbalanced
  /-- The document ends inside an element. -/
  | unfinished
  | noRoot
  | severalRoots
  /-- A problem that was met elsewhere and described in words. -/
  | told (words : String)
  deriving DecidableEq, Repr

structure Trail (α : Type) where
  items : List α
  fault : Option Problem := none
  deriving DecidableEq, Repr

namespace Trail

/-- Items passed through a machine one after another: the results so far, latest
first, and the state or the fault that ended the work. -/
def passThrough
    {σ α β : Type}
    (step : σ → α → Except Problem (σ × β)) :
    σ → List α → List β → List β × Except Problem σ
  | s, [], done => (done, .ok s)
  | s, a :: rest, done =>
    match step s a with
    | .ok (next, b) => passThrough step next rest (b :: done)
    | .error p => (done, .error p)

/-- The trail that a machine makes of a trail. -/
def through
    {σ α β : Type}
    (step : σ → α → Except Problem (σ × β))
    (start : σ)
    (t : Trail α) : Trail β :=
  match passThrough step start t.items [] with
  | (done, .ok _) => ⟨done.reverse, t.fault⟩
  | (done, .error p) => ⟨done.reverse, some p⟩

theorem passThrough_done
    {σ α β : Type}
    (step : σ → α → Except Problem (σ × β))
    (s : σ)
    (items : List α)
    (done : List β) :
    passThrough step s items done =
      ((passThrough step s items []).1 ++ done, (passThrough step s items []).2) := by
  induction items generalizing s done with
  | nil => simp [passThrough]
  | cons a rest ih =>
    cases hstep : step s a with
    | error p => simp [passThrough, hstep]
    | ok next =>
      obtain ⟨next, b⟩ := next
      simp only [passThrough, hstep]
      rw [ih next (b :: done), ih next [b]]
      simp

@[simp] theorem through_nil
    {σ α β : Type}
    (step : σ → α → Except Problem (σ × β))
    (s : σ)
    (fault : Option Problem) :
    through step s ⟨[], fault⟩ = ⟨[], fault⟩ := by
  rfl

theorem through_cons_ok
    {σ α β : Type}
    {step : σ → α → Except Problem (σ × β)}
    {s next : σ}
    {a : α}
    {b : β}
    (items : List α)
    (fault : Option Problem)
    (hstep : step s a = .ok (next, b)) :
    through step s ⟨a :: items, fault⟩ =
      ⟨b :: (through step next ⟨items, fault⟩).items,
        (through step next ⟨items, fault⟩).fault⟩ := by
  simp only [through, passThrough, hstep]
  rw [passThrough_done]
  rcases passThrough step next items [] with ⟨done, _ | _⟩ <;> simp

theorem through_cons_error
    {σ α β : Type}
    {step : σ → α → Except Problem (σ × β)}
    {s : σ}
    {a : α}
    {p : Problem}
    (items : List α)
    (fault : Option Problem)
    (hstep : step s a = .error p) :
    through step s ⟨a :: items, fault⟩ = ⟨[], some p⟩ := by
  simp [through, passThrough, hstep]

end Trail

namespace Problem

/-- The words for a problem; broken markup is not described any further. -/
def words? : Problem → Option String
  | brokenMarkup => none
  | badAttribute => some "invalid attribute:"
  | badAttributeValue => some "invalid attribute value:"
  | unbalanced => some "unbalanced end tag"
  | unfinished => some "unexpected end of document"
  | noRoot => some "document has no root element"
  | severalRoots => some "multiple root elements"
  | told words => some words

end Problem
end Xml
end PimDav
