import PimDav.Proofs.Xml.Building

/-!
# Open elements and their names

The reader of names and the builder of the tree both keep a stack of the open
elements.  After every token the two stacks hold the same names, so the builder
never meets a closing tag for which it has no element.
-/

namespace PimDav
namespace Xml

namespace Token

/-- Whether the token opens or closes an element. -/
def isTag : Token → Bool
  | opening _ => true
  | closing _ => true
  | _ => false

/-- A document can only be broken where it is cut into tokens. -/
theorem fault_trail
    (bytes : Bytes) :
    (trail bytes).fault = none ∨ (trail bytes).fault = some .brokenMarkup := by
  rw [trail, Lexing.finish]
  cases ((withoutMark bytes).foldl Lexing.feed {}).mode with
  | text seen => exact Or.inl rfl
  | _ => exact Or.inr rfl

end Token

namespace RawAttribute

theorem fault_trailFrom
    (place : Place)
    (done : List RawAttribute)
    (bytes : Bytes) :
    (trailFrom place done bytes).fault = none ∨
      (trailFrom place done bytes).fault = some .badAttribute := by
  induction bytes generalizing place done with
  | nil =>
    cases place with
    | between => exact Or.inl rfl
    | _ => exact Or.inr rfl
  | cons b bytes ih =>
    cases hstep : step place b with
    | ok next => simpa [trailFrom, hstep] using ih next.1 (next.2 ++ done)
    | error p =>
      have hbad : p = .badAttribute := by
        unfold step at hstep
        grind
      simp [trailFrom, hstep, hbad]

end RawAttribute

namespace RawTag

theorem name_of_read
    {raw : RawTag}
    {space : Option Bytes}
    {tag : Tag}
    (hread : raw.read space = .ok tag) :
    tag.name = Utf8.decodeLossy raw.name := by
  unfold read at hread
  cases hattributes : raw.readAttributes with
  | error p =>
    rw [hattributes] at hread
    cases hread
  | ok attributes =>
    rw [hattributes] at hread
    cases hread
    rfl

/-- What may be wrong with a tag are its attributes. -/
theorem error_of_read
    {bytes : Bytes}
    {space : Option Bytes}
    {p : Problem}
    (hread : (ofBytes bytes).read space = .error p) :
    p = .badAttribute ∨ p = .badAttributeValue := by
  cases hattributes : (ofBytes bytes).readAttributes with
  | ok attributes =>
    rw [read, hattributes] at hread
    cases hread
  | error q =>
    rw [read, hattributes] at hread
    cases hread
    unfold readAttributes at hattributes
    generalize hmap : List.mapM (m := Except Problem) _ _ = attributes at hattributes
    cases attributes with
    | error r =>
      cases hattributes
      obtain ⟨a, -, herror⟩ := mapM_eq_error hmap
      cases hvalue : a.read? with
      | none =>
        rw [hvalue] at herror
        cases herror
        exact Or.inr rfl
      | some pair =>
        rw [hvalue] at herror
        cases herror
    | ok attributes =>
      have hfault : (ofBytes bytes).attributes.fault = none ∨
          (ofBytes bytes).attributes.fault = some .badAttribute :=
        RawAttribute.fault_trailFrom _ _ _
      rcases hfault with hfault | hfault
      · rw [hfault] at hattributes
        cases hattributes
      · rw [hfault] at hattributes
        cases hattributes
        exact Or.inl rfl

end RawTag

namespace Event

/-- What a token can make of the open elements, and the event that comes of it. -/
inductive Steps : List Scope → Token → Event → List Scope → Prop where
  | text
      {t : Token}
      (ht : t.isTag = false)
      (scopes : List Scope)
      (s : String) :
      Steps scopes t (.text s) scopes
  | aside
      (scopes : List Scope) :
      Steps scopes .aside .aside scopes
  | empty
      (scopes : List Scope)
      (raw said : Bytes)
      (space : Option Bytes) :
      Steps scopes (.opening raw) (.empty (RawTag.ofBytes said) space) scopes
  | start
      (scopes : List Scope)
      (raw said : Bytes)
      (space : Option Bytes)
      (bindings : List Binding) :
      Steps scopes (.opening raw) (.start (RawTag.ofBytes said) space)
        (⟨(RawTag.ofBytes said).name, bindings⟩ :: scopes)
  | finish
      (scope : Scope)
      (scopes : List Scope)
      (raw : Bytes) :
      Steps (scope :: scopes) (.closing raw) .finish scopes

variable {scopes later : List Scope} {t : Token} {event : Event}

theorem steps_of_step
    (hstep : step scopes t = .ok (later, event)) :
    Steps scopes t event later := by
  cases t with
  | text raw =>
    cases hstep
    exact .text rfl scopes _
  | reference raw =>
    cases hstep
    exact .text rfl scopes _
  | cdata raw =>
    cases hstep
    exact .text rfl scopes _
  | aside =>
    cases hstep
    exact .aside scopes
  | opening raw =>
    simp only [step] at hstep
    generalize opensAndCloses raw = shape at hstep
    obtain ⟨closesAtOnce, said⟩ := shape
    dsimp only at hstep
    cases hdeclare : Binding.declare (inForce scopes) (RawTag.ofBytes said) with
    | error p =>
      rw [hdeclare] at hstep
      cases hstep
    | ok bindings =>
      rw [hdeclare] at hstep
      cases closesAtOnce with
      | true =>
        cases hstep
        exact .empty scopes raw said _
      | false =>
        cases hstep
        exact .start scopes raw said _ bindings
  | closing raw =>
    cases scopes with
    | nil => cases hstep
    | cons scope scopes =>
      rw [step] at hstep
      split at hstep
      · cases hstep
        exact .finish scope _ raw
      · cases hstep

theorem error_of_declare
    {inForce : List Binding}
    {tag : RawTag}
    {p : Problem}
    (hdeclare : Binding.declare inForce tag = .error p) :
    p = .brokenMarkup := by
  obtain ⟨bindings, a, -, -, herror⟩ :=
    foldlM_eq_error (fun _ => True) (fun _ _ => trivial) trivial hdeclare
  cases hbinding : Binding.ofAttribute a with
  | none =>
    rw [hbinding] at herror
    cases herror
    rfl
  | some binding =>
    rw [hbinding] at herror
    cases binding <;> cases herror

/-- The reader of names knows one kind of fault. -/
theorem error_of_step
    {p : Problem}
    (hstep : step scopes t = .error p) :
    p = .brokenMarkup := by
  cases t with
  | opening raw =>
    simp only [step] at hstep
    generalize opensAndCloses raw = shape at hstep
    obtain ⟨closesAtOnce, said⟩ := shape
    dsimp only at hstep
    cases hdeclare : Binding.declare (inForce scopes) (RawTag.ofBytes said) with
    | error q =>
      rw [hdeclare] at hstep
      cases hstep
      exact error_of_declare hdeclare
    | ok bindings =>
      rw [hdeclare] at hstep
      cases closesAtOnce <;> cases hstep
  | closing raw =>
    cases scopes with
    | nil =>
      cases hstep
      rfl
    | cons scope scopes =>
      rw [step] at hstep
      split at hstep
      · cases hstep
      · cases hstep
        rfl
  | _ => cases hstep

end Event

/-- The names of the open elements after a mark, innermost first. -/
def Mark.openNames : List String → Mark → List String
  | names, .opens tag => tag.name :: names
  | names, .closes => names.tail
  | names, .tells _ => names

/-- Marks and the token that they come from change the open names alike. -/
theorem Event.Steps.openNames
    {scopes later : List Scope}
    {t : Token}
    {event : Event}
    {marks : List Mark}
    (hsteps : Event.Steps scopes t event later)
    (hmarks : event.marks = .ok marks) :
    marks.foldl Mark.openNames (scopes.map fun scope => Utf8.decodeLossy scope.name) =
      later.map fun scope => Utf8.decodeLossy scope.name := by
  cases hsteps with
  | text ht scopes s =>
    cases hmarks
    rfl
  | aside scopes =>
    cases hmarks
    rfl
  | empty scopes raw said space =>
    obtain ⟨tag, -, rfl⟩ := map_eq_ok hmarks
    rfl
  | start scopes raw said space bindings =>
    obtain ⟨tag, hread, rfl⟩ := map_eq_ok hmarks
    exact congrArg (· :: _) (RawTag.name_of_read hread)
  | finish scope scopes raw =>
    cases hmarks
    rfl

namespace Builder

variable {b c : Builder} {e : Element}

theorem names_take
    {m : Mark}
    (htake : b.take m = .ok c) :
    c.stack.map Element.name = m.openNames (b.stack.map Element.name) := by
  cases takes_of_take htake <;> rfl

theorem names_foldlM
    {marks : List Mark}
    (hfold : marks.foldlM take b = .ok c) :
    c.stack.map Element.name = marks.foldl Mark.openNames (b.stack.map Element.name) := by
  induction marks generalizing b with
  | nil =>
    cases hfold
    rfl
  | cons m marks ih =>
    obtain ⟨next, htake, hrest⟩ := foldlM_cons_eq_ok.1 hfold
    rw [ih hrest, names_take htake]
    rfl

theorem step_eq_ok
    {event : Event}
    (hstep : b.step event = .ok c) :
    ∃ marks, event.marks = .ok marks ∧ marks.foldlM take b = .ok c := by
  rw [step_eq] at hstep
  cases hmarks : event.marks with
  | error p =>
    rw [hmarks] at hstep
    cases hstep
  | ok marks =>
    rw [hmarks] at hstep
    exact ⟨marks, rfl, hstep⟩

theorem attach_eq_error
    {p : Problem}
    (hattach : b.attach e = .error p) :
    p = .severalRoots := by
  unfold attach at hattach
  split at hattach
  · cases hattach
  · cases hattach
  · cases hattach
    rfl

end Builder

namespace Progress

variable {p q : Progress} {t : Token}

/-- Whether the open elements have the names under which the reader knows them. -/
def IsNested (p : Progress) : Prop :=
  p.builder.stack.map Element.name = p.scopes.map fun scope => Utf8.decodeLossy scope.name

theorem take_eq_ok
    (htake : p.take t = .ok q) :
    ∃ event, Event.Steps p.scopes t event q.scopes ∧ p.builder.step event = .ok q.builder := by
  unfold take at htake
  cases hevent : Event.step p.scopes t with
  | error f =>
    rw [hevent] at htake
    cases htake
  | ok next =>
    obtain ⟨scopes, event⟩ := next
    rw [hevent] at htake
    dsimp only [bind, Except.bind] at htake
    cases hbuilder : p.builder.step event with
    | error f =>
      rw [hbuilder] at htake
      cases htake
    | ok builder =>
      rw [hbuilder] at htake
      cases htake
      exact ⟨event, Event.steps_of_step hevent, hbuilder⟩

theorem take_eq_error
    {f : Problem}
    (htake : p.take t = .error f) :
    f = .brokenMarkup ∨
      ∃ event scopes, Event.Steps p.scopes t event scopes ∧ p.builder.step event = .error f := by
  unfold take at htake
  cases hevent : Event.step p.scopes t with
  | error g =>
    rw [hevent] at htake
    cases htake
    exact Or.inl (Event.error_of_step hevent)
  | ok next =>
    obtain ⟨scopes, event⟩ := next
    rw [hevent] at htake
    dsimp only [bind, Except.bind] at htake
    cases hbuilder : p.builder.step event with
    | error g =>
      rw [hbuilder] at htake
      cases htake
      exact Or.inr ⟨event, scopes, Event.steps_of_step hevent, hbuilder⟩
    | ok builder =>
      rw [hbuilder] at htake
      cases htake

/-- A token changes both stacks alike. -/
theorem isNested_take
    (hnested : p.IsNested)
    (htake : p.take t = .ok q) :
    q.IsNested := by
  obtain ⟨event, hevent, hbuilder⟩ := take_eq_ok htake
  obtain ⟨marks, hmarks, hfold⟩ := Builder.step_eq_ok hbuilder
  rw [IsNested, Builder.names_foldlM hfold, hnested]
  exact hevent.openNames hmarks

/-- Where names are nested, every closing tag has an element to close. -/
theorem ne_unbalanced_of_take
    {f : Problem}
    (hnested : p.IsNested)
    (htake : p.take t = .error f) :
    f ≠ .unbalanced := by
  rintro rfl
  rcases take_eq_error htake with hbroken | ⟨event, later, hevent, hbuilder⟩
  · cases hbroken
  have hread :
      ∀ (said : Bytes) (space : Option Bytes),
        (RawTag.ofBytes said).read space ≠ .error .unbalanced := by
    intro said space hread
    rcases RawTag.error_of_read hread with hf | hf <;> cases hf
  unfold IsNested at hnested
  generalize p.scopes = scopes at hnested hevent
  cases hevent with
  | text ht scopes s =>
    cases hstack : p.builder.stack <;>
      · simp only [Builder.step, hstack] at hbuilder
        cases hbuilder
  | aside scopes => cases hbuilder
  | empty scopes raw said space =>
    rw [Builder.step] at hbuilder
    cases hsaid : (RawTag.ofBytes said).read space with
    | error f =>
      rw [hsaid] at hbuilder
      cases hbuilder
      exact hread said space hsaid
    | ok tag =>
      rw [hsaid] at hbuilder
      cases Builder.attach_eq_error hbuilder
  | start scopes raw said space bindings =>
    rw [Builder.step] at hbuilder
    cases hsaid : (RawTag.ofBytes said).read space with
    | error f =>
      rw [hsaid] at hbuilder
      cases hbuilder
      exact hread said space hsaid
    | ok tag =>
      rw [hsaid] at hbuilder
      cases hbuilder
  | finish scope scopes raw =>
    cases hstack : p.builder.stack with
    | nil =>
      rw [hstack] at hnested
      cases hnested
    | cons e outer =>
      simp only [Builder.step, hstack] at hbuilder
      cases Builder.attach_eq_error hbuilder

/-- After any number of tokens the open elements have the names under which the reader
knows them. -/
theorem isNested_foldlM
    {tokens : List Token}
    (htake : tokens.foldlM take {} = .ok p) :
    p.IsNested :=
  foldlM_invariant IsNested isNested_take (rfl : IsNested {}) htake

end Progress

/-- No document closes an element that the builder does not have. -/
theorem parse_ne_unbalanced
    (bytes : Bytes) :
    parse bytes ≠ .error .unbalanced := by
  intro hparse
  rw [parse_eq] at hparse
  cases hfold : (Token.trail bytes).items.foldlM Progress.take {} with
  | error f =>
    rw [hfold] at hparse
    cases hparse
    obtain ⟨p, t, -, hnested, htake⟩ :=
      foldlM_eq_error Progress.IsNested Progress.isNested_take (rfl : Progress.IsNested {}) hfold
    exact Progress.ne_unbalanced_of_take hnested htake rfl
  | ok p =>
    rw [hfold] at hparse
    have hconclude : Progress.conclude (Token.trail bytes).fault p = .error .unbalanced := hparse
    rcases Token.fault_trail bytes with hfault | hfault
    · rw [hfault] at hconclude
      rcases Builder.error_of_finish hconclude with hp | hp <;> cases hp
    · rw [hfault] at hconclude
      cases hconclude

end Xml
end PimDav
