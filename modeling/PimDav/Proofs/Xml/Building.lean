import PimDav.Proofs.Xml.Marks
import PimDav.Proofs.Xml.Progress

/-!
# Trees built from marks

Every event leaves marks, and the builder takes them one by one.  What it has built
so far shows exactly the marks that it took, tidied; and it takes all of them
and ends with a root exactly when the tags among them are those of one element.
-/

namespace PimDav
namespace Xml

open Mark (Balanced OneElement joined withinRoot)

namespace Event

/-- The marks that an event leaves, if its attributes can be read. -/
def marks : Event → Except Problem (List Mark)
  | start raw space => (raw.read space).map fun tag => [.opens tag]
  | empty raw space => (raw.read space).map fun tag => [.opens tag, .closes]
  | finish => .ok [.closes]
  | text s => .ok [.tells s]
  | aside => .ok []

/-- The marks of events that follow one another. -/
def allMarks : List Event → Except Problem (List Mark)
  | [] => .ok []
  | event :: events => do
    let first ← event.marks
    let later ← allMarks events
    return first ++ later

theorem allMarks_cons_eq_ok
    {event : Event}
    {events : List Event}
    {marks : List Mark}
    (hmarks : allMarks (event :: events) = .ok marks) :
    ∃ first later, event.marks = .ok first ∧ allMarks events = .ok later ∧
      marks = first ++ later := by
  rw [allMarks] at hmarks
  cases hfirst : event.marks with
  | error p =>
    rw [hfirst] at hmarks
    cases hmarks
  | ok first =>
    cases hlater : allMarks events with
    | error p =>
      rw [hfirst, hlater] at hmarks
      cases hmarks
    | ok later =>
      rw [hfirst, hlater] at hmarks
      cases hmarks
      exact ⟨first, later, rfl, rfl, rfl⟩

end Event

namespace Builder

/-- One mark. -/
def take (b : Builder) : Mark → Except Problem Builder
  | .opens tag => .ok { b with stack := { tag } :: b.stack }
  | .closes => b.step .finish
  | .tells s => b.step (.text s)

/-- An event counts as its marks. -/
theorem step_eq
    (b : Builder)
    (event : Event) :
    b.step event = event.marks >>= fun marks => marks.foldlM take b := by
  cases event with
  | start raw space =>
    rw [step, Event.marks]
    cases raw.read space <;> rfl
  | empty raw space =>
    rw [step, Event.marks]
    cases raw.read space with
    | error p => rfl
    | ok tag =>
      have hattach : b.attach { tag } = (b.attach { tag } >>= fun c => pure c) := by
        cases b.attach { tag } <;> rfl
      exact hattach
  | finish =>
    have hstep : b.step .finish = (b.step .finish >>= fun c => pure c) := by
      cases b.step .finish <;> rfl
    exact hstep
  | text s =>
    have hstep : b.step (.text s) = (b.step (.text s) >>= fun c => pure c) := by
      cases b.step (.text s) <;> rfl
    exact hstep
  | aside => rfl

theorem foldlM_step_eq
    {events : List Event}
    {marks : List Mark}
    (hmarks : Event.allMarks events = .ok marks)
    (b : Builder) :
    events.foldlM step b = marks.foldlM take b := by
  induction events generalizing b marks with
  | nil =>
    cases hmarks
    rfl
  | cons event events ih =>
    obtain ⟨first, later, hfirst, hlater, rfl⟩ := Event.allMarks_cons_eq_ok hmarks
    have hstep : b.step event = first.foldlM take b := by
      rw [step_eq, hfirst]
      rfl
    rw [List.foldlM_cons, List.foldlM_append, hstep]
    cases first.foldlM take b with
    | error p => rfl
    | ok c => exact ih hlater c

/-- What a mark can make of a builder. -/
inductive Takes : Builder → Mark → Builder → Prop where
  | opens
      (tag : Tag)
      (stack : List Element)
      (root : Option Element) :
      Takes ⟨stack, root⟩ (.opens tag) ⟨{ tag } :: stack, root⟩
  | closes
      (e parent : Element)
      (outer : List Element)
      (root : Option Element) :
      Takes ⟨e :: parent :: outer, root⟩ .closes ⟨parent.child e :: outer, root⟩
  | closesRoot
      (e : Element) :
      Takes ⟨[e], none⟩ .closes ⟨[], some e⟩
  | tells
      (s : String)
      (e : Element)
      (outer : List Element)
      (root : Option Element) :
      Takes ⟨e :: outer, root⟩ (.tells s) ⟨e.text s :: outer, root⟩
  | tellsOutside
      (s : String)
      (root : Option Element) :
      Takes ⟨[], root⟩ (.tells s) ⟨[], root⟩

variable {b c : Builder} {m : Mark}

theorem takes_of_take
    (htake : b.take m = .ok c) :
    Takes b m c := by
  obtain ⟨stack, root⟩ := b
  cases m with
  | opens tag =>
    cases htake
    exact .opens tag stack root
  | closes =>
    rcases stack with _ | ⟨e, _ | ⟨parent, outer⟩⟩
    · cases htake
    · cases root with
      | none =>
        cases htake
        exact .closesRoot e
      | some r => cases htake
    · cases htake
      exact .closes e parent outer root
  | tells s =>
    cases stack with
    | nil =>
      cases htake
      exact .tellsOutside s root
    | cons e outer =>
      cases htake
      exact .tells s e outer root

/-- A mark is refused when it closes nothing, or a second root. -/
theorem take_eq_error
    {p : Problem}
    (htake : b.take m = .error p) :
    m = .closes ∧ (b.stack = [] ∧ p = .unbalanced ∨ b.stack ≠ [] ∧ p = .severalRoots) := by
  obtain ⟨stack, root⟩ := b
  cases m with
  | opens tag => cases htake
  | closes =>
    rcases stack with _ | ⟨e, _ | ⟨parent, outer⟩⟩
    · cases htake
      exact ⟨rfl, Or.inl ⟨rfl, rfl⟩⟩
    · cases root with
      | none => cases htake
      | some r =>
        cases htake
        exact ⟨rfl, Or.inr ⟨nofun, rfl⟩⟩
    · cases htake
  | tells s =>
    cases stack <;> cases htake

/-- The marks of what has been built: those of the root, and of the open elements as far
as they go, outermost first. -/
def shown (b : Builder) : List Mark :=
  (b.root.map fun e => e.alone.marks).getD [] ++
    b.stack.reverse.flatMap fun e => .opens e.tag :: e.content.marks

/-- Whether the texts in all that has been built are joined. -/
structure IsJoined (b : Builder) : Prop where
  root : ∀ e ∈ b.root, e.content.isJoined = true
  stack : ∀ e ∈ b.stack, e.content.isJoined = true

theorem isJoined_empty :
    IsJoined {} where
  root := by simp
  stack := by simp

theorem isJoined_take
    (hjoined : b.IsJoined)
    (htake : b.take m = .ok c) :
    c.IsJoined := by
  obtain ⟨hroot, hstack⟩ := hjoined
  cases takes_of_take htake with
  | opens tag stack root =>
    refine ⟨hroot, ?_⟩
    rw [List.forall_mem_cons]
    exact ⟨rfl, hstack⟩
  | closes e parent outer root =>
    rw [List.forall_mem_cons, List.forall_mem_cons] at hstack
    obtain ⟨he, hparent, houter⟩ := hstack
    refine ⟨hroot, ?_⟩
    rw [List.forall_mem_cons]
    exact ⟨Content.isJoined_addElement he hparent, houter⟩
  | closesRoot e =>
    refine ⟨?_, List.forall_mem_nil _⟩
    rintro f ⟨⟩
    exact hstack e List.mem_cons_self
  | tells s e outer root =>
    rw [List.forall_mem_cons] at hstack
    refine ⟨hroot, ?_⟩
    rw [List.forall_mem_cons]
    exact ⟨Content.isJoined_addText s hstack.1, hstack.2⟩
  | tellsOutside s root => exact ⟨hroot, hstack⟩

theorem shown_cons
    (e : Element)
    (outer : List Element)
    (root : Option Element) :
    shown ⟨e :: outer, root⟩ = shown ⟨outer, root⟩ ++ .opens e.tag :: e.content.marks := by
  simp [shown]

/-- The marks of joined texts are joined. -/
theorem joined_shown
    (hjoined : b.IsJoined) :
    joined b.shown = b.shown := by
  obtain ⟨stack, root⟩ := b
  obtain ⟨hroot, hstack⟩ := hjoined
  induction stack with
  | nil =>
    cases root with
    | none => rfl
    | some e =>
      have he : e.alone.isJoined = true := by simpa [Element.alone, Content.isJoined] using hroot
      simpa [shown] using Content.joined_marks he
  | cons e outer ih =>
    rw [List.forall_mem_cons] at hstack
    rw [shown_cons, Mark.joined_append_tag rfl, ih hroot hstack.2, Content.joined_marks hstack.1]

/-- One mark more is shown, tidied. -/
theorem shown_take
    (hjoined : b.IsJoined)
    (htake : b.take m = .ok c) :
    c.shown = joined (b.shown ++ withinRoot b.stack.length [m]) := by
  have htag : m.isTag = true → joined (b.shown ++ [m]) = b.shown ++ [m] := by
    intro htag
    rw [Mark.joined_append_tag htag, joined_shown hjoined]
    rfl
  cases takes_of_take htake with
  | opens tag stack root =>
    rw [withinRoot, withinRoot, htag rfl, shown_cons]
    rfl
  | closes e parent outer root =>
    rw [withinRoot, withinRoot, htag rfl, shown_cons, shown_cons, shown_cons, Element.child,
      Content.addElement_eq_append, Content.marks_append, Element.marks_alone]
    simp
  | closesRoot e =>
    rw [withinRoot, withinRoot, htag rfl]
    simp [shown, Element.marks_alone]
  | tells s e outer root =>
    have he := hjoined.stack e List.mem_cons_self
    have hrest : joined (shown ⟨outer, root⟩) = shown ⟨outer, root⟩ :=
      joined_shown ⟨hjoined.root, fun f hf => hjoined.stack f (List.mem_cons_of_mem e hf)⟩
    rw [List.length_cons, withinRoot, withinRoot, shown_cons, shown_cons, List.append_assoc,
      List.cons_append, Mark.joined_append_tag rfl, hrest, ← Content.marks_addText s he]
    rfl
  | tellsOutside s root =>
    rw [List.length_nil, withinRoot, withinRoot, List.append_nil, joined_shown hjoined]

theorem withinRoot_cons_of_take
    (htake : b.take m = .ok c)
    (marks : List Mark) :
    withinRoot b.stack.length (m :: marks) =
      withinRoot b.stack.length [m] ++ withinRoot c.stack.length marks := by
  cases takes_of_take htake with
  | opens tag stack root => rfl
  | closes e parent outer root => rfl
  | closesRoot e => rfl
  | tells s e outer root => rfl
  | tellsOutside s root => simp [withinRoot]

/-- All marks that were taken are shown, tidied. -/
theorem shown_foldlM
    {marks : List Mark}
    (hjoined : b.IsJoined)
    (hfold : marks.foldlM take b = .ok c) :
    c.shown = joined (b.shown ++ withinRoot b.stack.length marks) := by
  induction marks generalizing b with
  | nil =>
    cases hfold
    rw [withinRoot, List.append_nil, joined_shown hjoined]
  | cons m marks ih =>
    obtain ⟨next, htake, hrest⟩ := foldlM_cons_eq_ok.1 hfold
    rw [ih (isJoined_take hjoined htake) hrest, shown_take hjoined htake,
      Mark.joined_joined_append, List.append_assoc, ← withinRoot_cons_of_take htake]

/-- Texts outside of every element change nothing. -/
theorem foldlM_take_outside
    {marks : List Mark}
    (htexts : ∀ m ∈ marks, ¬ m.isTag = true)
    (root : Option Element) :
    marks.foldlM take ⟨[], root⟩ = .ok ⟨[], root⟩ := by
  induction marks with
  | nil => rfl
  | cons m marks ih =>
    rw [List.forall_mem_cons] at htexts
    cases m with
    | tells s => exact ih htexts.2
    | opens tag => exact absurd rfl htexts.1
    | closes => exact absurd rfl htexts.1

/-- Texts go into the innermost open element. -/
theorem foldlM_take_texts
    {marks : List Mark}
    (htexts : ∀ m ∈ marks, ¬ m.isTag = true)
    (e : Element)
    (outer : List Element)
    (root : Option Element) :
    ∃ f, marks.foldlM take ⟨e :: outer, root⟩ = .ok ⟨f :: outer, root⟩ := by
  induction marks generalizing e with
  | nil => exact ⟨e, rfl⟩
  | cons m marks ih =>
    rw [List.forall_mem_cons] at htexts
    cases m with
    | tells s => exact ih htexts.2 (e.text s)
    | opens tag => exact absurd rfl htexts.1
    | closes => exact absurd rfl htexts.1

/-- Balanced tags, with any texts between them, go into the innermost open element. -/
theorem foldlM_take_balanced
    {tags : List Mark}
    (hbalanced : Balanced tags)
    {marks : List Mark}
    (htags : marks.filter Mark.isTag = tags)
    (e : Element)
    (outer : List Element)
    (root : Option Element) :
    ∃ f, marks.foldlM take ⟨e :: outer, root⟩ = .ok ⟨f :: outer, root⟩ := by
  induction hbalanced generalizing marks e outer with
  | nothing => exact foldlM_take_texts (List.filter_eq_nil_iff.1 htags) e outer root
  | element tag hinside hafter ihInside ihAfter =>
    obtain ⟨before, rest, rfl, hbefore, -, hrest⟩ := List.filter_eq_cons_iff.1 htags
    obtain ⟨within, rest, rfl, hwithin, hrest⟩ := List.filter_eq_append_iff.1 hrest
    obtain ⟨texts, after, rfl, htexts, -, hafter⟩ := List.filter_eq_cons_iff.1 hrest
    obtain ⟨parent, hparent⟩ := foldlM_take_texts hbefore e outer root
    obtain ⟨made, hmade⟩ := ihInside hwithin { tag } (parent :: outer)
    obtain ⟨child, hchild⟩ := foldlM_take_texts htexts made (parent :: outer) root
    obtain ⟨f, hf⟩ := ihAfter hafter (parent.child child) outer
    refine ⟨f, foldlM_append_eq_ok.2 ⟨_, hparent, foldlM_cons_eq_ok.2 ⟨_, rfl, ?_⟩⟩⟩
    exact foldlM_append_eq_ok.2 ⟨_, hmade, foldlM_append_eq_ok.2 ⟨_, hchild,
      foldlM_cons_eq_ok.2 ⟨_, rfl, hf⟩⟩⟩

/-- The tags of one element, with any texts between and around them, make a root. -/
theorem foldlM_take_oneElement
    {marks : List Mark}
    (hone : OneElement (marks.filter Mark.isTag)) :
    ∃ e, marks.foldlM take {} = .ok ⟨[], some e⟩ := by
  obtain ⟨tag, inside, hinside, htags⟩ := hone
  obtain ⟨before, rest, rfl, hbefore, -, hrest⟩ := List.filter_eq_cons_iff.1 htags
  obtain ⟨within, rest, rfl, hwithin, hrest⟩ := List.filter_eq_append_iff.1 hrest
  obtain ⟨texts, after, rfl, htexts, -, hafter⟩ := List.filter_eq_cons_iff.1 hrest
  obtain ⟨made, hmade⟩ := foldlM_take_balanced hinside hwithin { tag } [] none
  obtain ⟨e, he⟩ := foldlM_take_texts htexts made [] none
  refine ⟨e, foldlM_append_eq_ok.2 ⟨_, foldlM_take_outside hbefore none,
    foldlM_cons_eq_ok.2 ⟨_, rfl, ?_⟩⟩⟩
  exact foldlM_append_eq_ok.2 ⟨_, hmade, foldlM_append_eq_ok.2 ⟨_, he, foldlM_cons_eq_ok.2
    ⟨_, rfl, foldlM_take_outside (List.filter_eq_nil_iff.1 hafter) (some e)⟩⟩⟩

theorem finish_eq_ok
    {e : Element}
    (hfinish : b.finish = .ok e) :
    b = ⟨[], some e⟩ := by
  obtain ⟨stack, root⟩ := b
  cases stack with
  | cons inner outer => cases hfinish
  | nil =>
    cases root with
    | none => cases hfinish
    | some r =>
      cases hfinish
      rfl

theorem error_of_finish
    {p : Problem}
    (hfinish : b.finish = .error p) :
    p = .unfinished ∨ p = .noRoot := by
  unfold finish at hfinish
  split at hfinish
  · split at hfinish
    · cases hfinish
    · cases hfinish
      exact Or.inr rfl
  · cases hfinish
    exact Or.inl rfl

/-- What is built of marks shows these marks, tidied. -/
theorem marks_of_finish
    {marks : List Mark}
    {e : Element}
    (hfinish : (marks.foldlM take {} >>= finish) = .ok e) :
    e.alone.marks = joined (withinRoot 0 marks) := by
  cases hfold : marks.foldlM take {} with
  | error p =>
    rw [hfold] at hfinish
    cases hfinish
  | ok b =>
    rw [hfold] at hfinish
    obtain rfl := finish_eq_ok hfinish
    simpa [shown] using shown_foldlM isJoined_empty hfold

/-- The tags of one element are all taken, and the element is finished with them. -/
theorem exists_finish_iff
    {marks : List Mark} :
    (∃ e, (marks.foldlM take {} >>= finish) = .ok e) ↔
      OneElement (marks.filter Mark.isTag) := by
  constructor
  · rintro ⟨e, hfinish⟩
    have hone := e.oneElement_marks_alone
    rwa [marks_of_finish hfinish, Mark.filter_isTag_joined, Mark.filter_isTag_withinRoot] at hone
  · intro hone
    obtain ⟨e, hfold⟩ := foldlM_take_oneElement hone
    exact ⟨e, by rw [hfold]; rfl⟩

/-- The element that is built is the only one that shows the marks. -/
theorem finish_eq_ok_iff
    {marks : List Mark}
    {e : Element} :
    (marks.foldlM take {} >>= finish) = .ok e ↔
      e.alone.marks = joined (withinRoot 0 marks) := by
  refine ⟨marks_of_finish, ?_⟩
  intro he
  have hone := e.oneElement_marks_alone
  rw [he, Mark.filter_isTag_joined, Mark.filter_isTag_withinRoot] at hone
  obtain ⟨f, hfinish⟩ := exists_finish_iff.2 hone
  rw [hfinish, Element.eq_of_marks_alone_eq (he.trans (marks_of_finish hfinish).symm)]

/-- The faults of marks that are not those of one element. -/
theorem finish_eq_error
    {marks : List Mark}
    {p : Problem}
    (hfinish : (marks.foldlM take {} >>= finish) = .error p) :
    p = .unbalanced ∨ p = .unfinished ∨ p = .noRoot ∨ p = .severalRoots := by
  cases hfold : marks.foldlM take {} with
  | error q =>
    rw [hfold] at hfinish
    cases hfinish
    obtain ⟨b, m, -, -, htake⟩ :=
      foldlM_eq_error (fun _ => True) (fun _ _ => trivial) trivial hfold
    rcases (take_eq_error htake).2 with ⟨-, rfl⟩ | ⟨-, rfl⟩
    · exact Or.inl rfl
    · exact Or.inr (Or.inr (Or.inr rfl))
  | ok b =>
    rw [hfold] at hfinish
    rcases error_of_finish hfinish with rfl | rfl
    · exact Or.inr (Or.inl rfl)
    · exact Or.inr (Or.inr (Or.inl rfl))

end Builder
end Xml
end PimDav
