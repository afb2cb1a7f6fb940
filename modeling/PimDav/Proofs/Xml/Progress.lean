import PimDav.Xml.Document

/-!
# Reading token by token

The stages of reading can be taken together: a token becomes an event and the
event changes the tree, before the next token is looked at.  The first fault on
this way is the fault of the document.
-/

namespace PimDav
namespace Xml

section Steps

variable {σ α ε : Type} {step : σ → α → Except ε σ}

theorem foldlM_cons_eq_ok
    {a : α}
    {items : List α}
    {s t : σ} :
    (a :: items).foldlM step s = .ok t ↔
      ∃ next, step s a = .ok next ∧ items.foldlM step next = .ok t := by
  rw [List.foldlM_cons]
  cases step s a with
  | error p => exact ⟨nofun, nofun⟩
  | ok next => exact ⟨fun h => ⟨next, rfl, h⟩, fun ⟨_, rfl, h⟩ => h⟩

theorem foldlM_append_eq_ok
    {first items : List α}
    {s t : σ} :
    (first ++ items).foldlM step s = .ok t ↔
      ∃ next, first.foldlM step s = .ok next ∧ items.foldlM step next = .ok t := by
  rw [List.foldlM_append]
  cases first.foldlM step s with
  | error p => exact ⟨nofun, nofun⟩
  | ok next => exact ⟨fun h => ⟨next, rfl, h⟩, fun ⟨_, rfl, h⟩ => h⟩

/-- What every step keeps is kept by all of them. -/
theorem foldlM_invariant
    (inv : σ → Prop)
    (hstep : ∀ {s a t}, inv s → step s a = .ok t → inv t)
    {items : List α}
    {s t : σ}
    (hs : inv s)
    (hfold : items.foldlM step s = .ok t) :
    inv t := by
  induction items generalizing s with
  | nil =>
    cases hfold
    exact hs
  | cons a items ih =>
    obtain ⟨next, hnext, hrest⟩ := foldlM_cons_eq_ok.1 hfold
    exact ih (hstep hs hnext) hrest

/-- The fault of all steps is that of one of them, at a state that the steps before it
lead to. -/
theorem foldlM_eq_error
    (inv : σ → Prop)
    (hstep : ∀ {s a t}, inv s → step s a = .ok t → inv t)
    {items : List α}
    {s : σ}
    {p : ε}
    (hs : inv s)
    (hfold : items.foldlM step s = .error p) :
    ∃ t, ∃ a ∈ items, inv t ∧ step t a = .error p := by
  induction items generalizing s with
  | nil => cases hfold
  | cons a items ih =>
    rw [List.foldlM_cons] at hfold
    cases hnext : step s a with
    | error q =>
      rw [hnext] at hfold
      cases hfold
      exact ⟨s, a, List.mem_cons_self, hs, hnext⟩
    | ok next =>
      rw [hnext] at hfold
      obtain ⟨t, b, hb, ht, herror⟩ := ih (hstep hs hnext) hfold
      exact ⟨t, b, List.mem_cons_of_mem a hb, ht, herror⟩

theorem mapM_eq_error
    {β : Type}
    {read : α → Except ε β}
    {items : List α}
    {p : ε}
    (hmap : items.mapM read = .error p) :
    ∃ a ∈ items, read a = .error p := by
  induction items with
  | nil => cases hmap
  | cons a items ih =>
    rw [List.mapM_cons] at hmap
    cases hread : read a with
    | error q =>
      rw [hread] at hmap
      cases hmap
      exact ⟨a, List.mem_cons_self, hread⟩
    | ok b =>
      cases hrest : items.mapM read with
      | error q =>
        rw [hread, hrest] at hmap
        cases hmap
        obtain ⟨x, hx, herror⟩ := ih hrest
        exact ⟨x, List.mem_cons_of_mem a hx, herror⟩
      | ok rest =>
        rw [hread, hrest] at hmap
        cases hmap

theorem map_eq_ok
    {β : Type}
    {f : α → β}
    {x : Except ε α}
    {b : β}
    (hmap : x.map f = .ok b) :
    ∃ a, x = .ok a ∧ f a = b := by
  cases x with
  | error p => cases hmap
  | ok a =>
    cases hmap
    exact ⟨a, rfl, rfl⟩

end Steps

/-- How far a document has been read: its open elements as far as names and
bindings go, and the tree in the making. -/
structure Progress where
  scopes : List Scope := []
  builder : Builder := {}
  deriving DecidableEq, Repr

namespace Progress

/-- One token. -/
def take
    (p : Progress)
    (t : Token) : Except Problem Progress := do
  let (scopes, event) ← Event.step p.scopes t
  let builder ← p.builder.step event
  return ⟨scopes, builder⟩

theorem foldlM_take_cons
    {p next : Progress}
    {t : Token}
    (htake : p.take t = .ok next)
    (tokens : List Token) :
    (t :: tokens).foldlM take p = tokens.foldlM take next := by
  rw [List.foldlM_cons, htake]
  rfl

theorem foldlM_take_append
    {p next : Progress}
    {first : List Token}
    (htake : first.foldlM take p = .ok next)
    (tokens : List Token) :
    (first ++ tokens).foldlM take p = tokens.foldlM take next := by
  rw [List.foldlM_append, htake]
  rfl

/-- The tree at the end of the document, unless something is wrong after all its
tokens. -/
def conclude
    (fault : Option Problem)
    (p : Progress) : Except Problem Element :=
  match fault with
  | some q => .error q
  | none => p.builder.finish

end Progress

theorem build_eq
    (events : Trail Event) :
    build events =
      events.items.foldlM Builder.step {} >>= fun b =>
        Progress.conclude events.fault ⟨[], b⟩ := by
  rfl

/-- The stages one after another and all stages for each token come to the same. -/
theorem foldlM_step_through
    (tokens : List Token)
    (fault : Option Problem)
    (p : Progress) :
    let events := (⟨tokens, fault⟩ : Trail Token).through Event.step p.scopes
    (events.items.foldlM Builder.step p.builder >>= fun b =>
        Progress.conclude events.fault ⟨[], b⟩) =
      tokens.foldlM Progress.take p >>= Progress.conclude fault := by
  induction tokens generalizing p with
  | nil => rfl
  | cons t tokens ih =>
    rw [List.foldlM_cons, Progress.take]
    cases hevent : Event.step p.scopes t with
    | error q =>
      rw [Trail.through_cons_error tokens fault hevent]
      rfl
    | ok next =>
      obtain ⟨scopes, event⟩ := next
      rw [Trail.through_cons_ok tokens fault hevent]
      simp only [List.foldlM_cons]
      cases hbuilder : p.builder.step event with
      | error q => simp [bind, Except.bind, hbuilder]
      | ok builder =>
        have hrest := ih ⟨scopes, builder⟩
        simpa [bind, Except.bind, pure, Except.pure, hbuilder] using hrest

/-- A document is read by taking its tokens one after another. -/
theorem parse_eq
    (bytes : Bytes) :
    parse bytes =
      (Token.trail bytes).items.foldlM Progress.take {} >>=
        Progress.conclude (Token.trail bytes).fault := by
  rw [parse, build_eq]
  exact foldlM_step_through (Token.trail bytes).items (Token.trail bytes).fault {}

end Xml
end PimDav
