import Mathlib.Data.List.Chain
import PimDav.Proofs.Xml.Nesting
import PimDav.Proofs.Xml.DeepElements

/-!
# Tidy texts

Nowhere in a tree that was built or read is there an empty text, and nowhere are there two
texts side by side.  Every way to add to an element keeps this, and the reader of documents
adds to its open elements in no other way.

So a tree shows no trace of how its texts were put together: two trees are equal as soon as
they show the same tags with the same characters between them.
-/

namespace PimDav
namespace Xml

open Mark (joined withinRoot)

/-- A text or an element, as it stands in an element. -/
inductive Node where
  | text (value : String)
  | element (e : Element)
  deriving DecidableEq, Repr

namespace Node

def isText : Node → Bool
  | text _ => true
  | element _ => false

/-- Whether no text among nodes is empty, and of any two neighbours one is no text. -/
structure Tidy (nodes : List Node) : Prop where
  shown : text "" ∉ nodes
  apart : nodes.IsChain fun m n => m.isText = false ∨ n.isText = false

theorem tidy_nil :
    Tidy [] where
  shown := List.not_mem_nil
  apart := .nil

theorem tidy_text_cons
    {v : String}
    {nodes : List Node} :
    Tidy (text v :: nodes) ↔
      v.isEmpty = false ∧ (∀ n ∈ nodes.head?, n.isText = false) ∧ Tidy nodes := by
  have hempty : v.isEmpty = false ↔ "" ≠ v := by
    rw [← Bool.not_eq_true, String.isEmpty_iff, ne_comm]
  rw [hempty]
  constructor
  · rintro ⟨hshown, hapart⟩
    rw [List.isChain_cons] at hapart
    refine ⟨fun hv => hshown (by simp [hv]), ?_, fun hmem => hshown (List.mem_cons_of_mem _ hmem),
      hapart.2⟩
    intro n hn
    rcases hapart.1 n hn with hfalse | hfalse
    · cases hfalse
    · exact hfalse
  · rintro ⟨hv, hhead, hshown, hapart⟩
    refine ⟨by simp [hv, hshown], ?_⟩
    rw [List.isChain_cons]
    exact ⟨fun n hn => Or.inr (hhead n hn), hapart⟩

theorem tidy_element_cons
    {e : Element}
    {nodes : List Node} :
    Tidy (element e :: nodes) ↔ Tidy nodes := by
  constructor
  · rintro ⟨hshown, hapart⟩
    exact ⟨fun hmem => hshown (List.mem_cons_of_mem _ hmem), (List.isChain_cons.1 hapart).2⟩
  · rintro ⟨hshown, hapart⟩
    refine ⟨by simp [hshown], ?_⟩
    rw [List.isChain_cons]
    exact ⟨fun n hn => Or.inl rfl, hapart⟩

end Node

namespace Mark

/-- A mark with its text cut into single characters. -/
def letters : Mark → List Mark
  | tells s => s.toList.map fun c => tells (String.singleton c)
  | m => [m]

/-- Single characters are joined to the text that they spell. -/
theorem foldr_joinTo_characters
    (cs : List Char)
    (marks : List Mark) :
    (cs.map fun c => tells (String.singleton c)).foldr joinTo marks =
      (tells (String.ofList cs)).joinTo marks := by
  induction cs with
  | nil => exact (joinTo_empty marks).symm
  | cons c cs ih =>
    have htext : String.singleton c ++ String.ofList cs = String.ofList (c :: cs) := by
      simp
    rw [List.map_cons, List.foldr_cons, ih, joinTo_joinTo, htext]

/-- Marks that were spelled out are joined again. -/
theorem joined_flatMap_letters
    (marks : List Mark) :
    joined (marks.flatMap letters) = joined marks := by
  induction marks with
  | nil => rfl
  | cons m marks ih =>
    have hfirst : ∀ rest, m.letters.foldr joinTo rest = m.joinTo rest := by
      intro rest
      cases m with
      | tells s => rw [letters, foldr_joinTo_characters, String.ofList_toList]
      | _ => rfl
    rw [joined, List.flatMap_cons, List.foldr_append, hfirst]
    exact congrArg m.joinTo ih

/-- Joining changes no character. -/
theorem flatMap_letters_joined
    (marks : List Mark) :
    (joined marks).flatMap letters = marks.flatMap letters := by
  induction marks with
  | nil => rfl
  | cons m marks ih =>
    have hjoin :
        ∀ rest : List Mark,
          (m.joinTo rest).flatMap letters = m.letters ++ rest.flatMap letters := by
      intro rest
      rcases m with _ | _ | s
      · rfl
      · rfl
      · rcases rest with _ | ⟨_ | _ | t, rest⟩
        case cons.tells => simp [joinTo, letters]
        all_goals by_cases hs : s = "" <;> simp [joinTo, letters, hs]
    have hcons : joined (m :: marks) = m.joinTo (joined marks) := rfl
    rw [hcons, hjoin, ih, List.flatMap_cons]

end Mark

namespace Content

def nodes : Content → List Node
  | nothing => []
  | text v after => .text v :: nodes after
  | element tag inside after => .element ⟨tag, inside⟩ :: nodes after

theorem beginsWithText_eq_false_iff
    {c : Content} :
    c.beginsWithText = false ↔ ∀ n ∈ c.nodes.head?, n.isText = false := by
  cases c with
  | nothing => simp [beginsWithText, nodes]
  | text v after => simp [beginsWithText, nodes, Node.isText]
  | element tag inside after => simp [beginsWithText, nodes, Node.isText]

/-- The test for joined texts looks at the nodes at every depth. -/
theorem isJoined_iff
    {c : Content} :
    c.isJoined = true ↔
      Node.Tidy c.nodes ∧ ∀ d ∈ c.deepElements, Node.Tidy d.content.nodes := by
  induction c with
  | nothing => simp [isJoined, nodes, deepElements, Node.tidy_nil]
  | text v after ih =>
    simp only [isJoined, Bool.and_eq_true, Bool.not_eq_true', ih, nodes, deepElements,
      Node.tidy_text_cons, beginsWithText_eq_false_iff, and_assoc]
  | element tag inside after ihInside ihAfter =>
    simp only [isJoined, Bool.and_eq_true, ihInside, ihAfter, nodes, deepElements,
      Node.tidy_element_cons, List.forall_mem_cons, List.forall_mem_append]
    constructor
    · rintro ⟨⟨hinside, hbelow⟩, hafter, hlater⟩
      exact ⟨hafter, hinside, hbelow, hlater⟩
    · rintro ⟨hafter, hinside, hbelow, hlater⟩
      exact ⟨⟨hinside, hbelow⟩, hafter, hlater⟩

end Content

namespace Element

/-- The texts and elements directly inside. -/
def nodes (e : Element) : List Node :=
  e.content.nodes

/-- The tags and, one by one, the characters of an element, in document order. -/
def letters (e : Element) : List Mark :=
  e.alone.marks.flatMap Mark.letters

/-- Whether the nodes of the element, and those of every element below it, are tidy. -/
def HasTidyTexts (e : Element) : Prop :=
  ∀ d ∈ e :: e.deepElements, Node.Tidy d.nodes

theorem hasTidyTexts_iff
    {e : Element} :
    e.HasTidyTexts ↔ e.content.isJoined = true := by
  rw [HasTidyTexts, List.forall_mem_cons, Content.isJoined_iff]
  rfl

theorem hasTidyTexts_child
    {e added : Element}
    (he : e.HasTidyTexts)
    (hadded : added.HasTidyTexts) :
    (e.child added).HasTidyTexts := by
  rw [hasTidyTexts_iff] at he hadded ⊢
  exact Content.isJoined_addElement hadded he

/-- Two trees with tidy texts are equal if they show the same tags and characters. -/
theorem eq_of_letters_eq
    {e f : Element}
    (he : e.HasTidyTexts)
    (hf : f.HasTidyTexts)
    (hletters : e.letters = f.letters) :
    e = f := by
  -- Joined, the letters are the marks again, for there is nothing else to join in them.
  have hmarks : ∀ d : Element, d.HasTidyTexts → joined d.letters = d.alone.marks := by
    intro d hd
    rw [letters, Mark.joined_flatMap_letters]
    apply Content.joined_marks
    simpa [alone, Content.isJoined] using hasTidyTexts_iff.1 hd
  apply eq_of_marks_alone_eq
  rw [← hmarks e he, ← hmarks f hf, hletters]

end Element

/-- One more step in the making of an element. -/
inductive Edit where
  | attr (key value : String)
  | child (added : Element)
  | children (added : List Element)
  | text (s : String)
  deriving DecidableEq, Repr

namespace Edit

def apply (e : Element) : Edit → Element
  | attr key value => e.attr key value
  | child added => e.child added
  | children added => e.children added
  | text s => e.text s

/-- The elements that a step adds. -/
def added : Edit → List Element
  | child added => [added]
  | children added => added
  | _ => []

/-- One step keeps the texts tidy. -/
theorem hasTidyTexts_apply
    {e : Element}
    {edit : Edit}
    (he : e.HasTidyTexts)
    (hadded : ∀ d ∈ edit.added, d.HasTidyTexts) :
    (edit.apply e).HasTidyTexts := by
  cases edit with
  | attr key value =>
    rw [Element.hasTidyTexts_iff] at he ⊢
    exact he
  | child d => exact Element.hasTidyTexts_child he (hadded d List.mem_cons_self)
  | children ds =>
    apply List.foldlRecOn ds Element.child he
    intro e he d hd
    exact Element.hasTidyTexts_child he (hadded d hd)
  | text s =>
    rw [Element.hasTidyTexts_iff] at he ⊢
    exact Content.isJoined_addText s he

/-- A step with its text cut into single characters. -/
def letters : Edit → List Edit
  | text s => s.toList.map fun c => text (String.singleton c)
  | edit => [edit]

end Edit

namespace Element

/-- The element after some steps. -/
def edited
    (e : Element)
    (edits : List Edit) : Element :=
  edits.foldl Edit.apply e

/-- Any number of steps keeps the texts tidy. -/
theorem hasTidyTexts_edited
    {e : Element}
    {edits : List Edit}
    (he : e.HasTidyTexts)
    (hadded : ∀ edit ∈ edits, ∀ d ∈ edit.added, d.HasTidyTexts) :
    (e.edited edits).HasTidyTexts := by
  apply List.foldlRecOn edits Edit.apply he
  intro e he edit hedit
  exact Edit.hasTidyTexts_apply he (hadded edit hedit)

theorem edited_characters
    (e : Element)
    (cs : List Char) :
    e.edited (cs.map fun c => .text (String.singleton c)) = e.text (String.ofList cs) := by
  induction cs generalizing e with
  | nil =>
    have hsame : e.text "" = e := by simp [text]
    exact hsame.symm
  | cons c cs ih =>
    have htext : String.singleton c ++ String.ofList cs = String.ofList (c :: cs) := by
      simp
    rw [← htext, ← text_text, ← ih]
    rfl

/-- A text may as well be added character by character. -/
theorem edited_flatMap_letters
    (e : Element)
    (edits : List Edit) :
    e.edited (edits.flatMap Edit.letters) = e.edited edits := by
  induction edits generalizing e with
  | nil => rfl
  | cons edit edits ih =>
    have hfirst : ∀ e : Element, e.edited edit.letters = edit.apply e := by
      intro e
      cases edit with
      | text s => rw [Edit.letters, edited_characters, String.ofList_toList, Edit.apply]
      | _ => rfl
    have happend : ∀ later : List Edit,
        e.edited (edit.letters ++ later) = (e.edited edit.letters).edited later := by
      intro later
      exact List.foldl_append
    rw [List.flatMap_cons, happend, hfirst]
    exact ih (edit.apply e)

end Element

namespace Builder

/-- Events that were all taken have left marks that were all taken. -/
theorem foldlM_step_eq_ok
    {b c : Builder}
    {events : List Event}
    (hfold : events.foldlM step b = .ok c) :
    ∃ marks, Event.allMarks events = .ok marks ∧ marks.foldlM take b = .ok c := by
  induction events generalizing b with
  | nil =>
    cases hfold
    exact ⟨[], rfl, rfl⟩
  | cons event events ih =>
    obtain ⟨next, hstep, hrest⟩ := foldlM_cons_eq_ok.1 hfold
    obtain ⟨first, hfirst, htaken⟩ := step_eq_ok hstep
    obtain ⟨later, hlater, htakenLater⟩ := ih hrest
    refine ⟨first ++ later, ?_, foldlM_append_eq_ok.2 ⟨next, htaken, htakenLater⟩⟩
    rw [Event.allMarks, hfirst, hlater]
    rfl

end Builder

/-- A document that is read has been built from marks. -/
theorem exists_marks_of_parse
    {bytes : Bytes}
    {e : Element}
    (hparse : parse bytes = .ok e) :
    ∃ marks, Event.allMarks (Event.trail bytes).items = .ok marks ∧
      marks.foldlM Builder.take {} = .ok ⟨[], some e⟩ := by
  rw [parse, build_eq] at hparse
  cases hfold : (Event.trail bytes).items.foldlM Builder.step {} with
  | error p =>
    rw [hfold] at hparse
    cases hparse
  | ok b =>
    rw [hfold] at hparse
    have hconclude : Progress.conclude (Event.trail bytes).fault ⟨[], b⟩ = .ok e := hparse
    unfold Progress.conclude at hconclude
    split at hconclude
    · cases hconclude
    · obtain rfl : b = ⟨[], some e⟩ := Builder.finish_eq_ok hconclude
      exact Builder.foldlM_step_eq_ok hfold

theorem hasTidyTexts_of_parse
    {bytes : Bytes}
    {e : Element}
    (hparse : parse bytes = .ok e) :
    e.HasTidyTexts := by
  obtain ⟨marks, -, hfold⟩ := exists_marks_of_parse hparse
  have hjoined := foldlM_invariant Builder.IsJoined Builder.isJoined_take Builder.isJoined_empty
    hfold
  exact Element.hasTidyTexts_iff.2 (hjoined.root e rfl)

/-- Whatever is done to an element whose texts are tidy, with children of the same kind, they
are tidy afterwards; those of a new element and of every tree that is read are.  So texts
that are added one after another are one text, steps that add the same characters make
the same element, and a document is read as the characters that its events tell.  Trees of
this kind are equal exactly when they show the same tags and characters, no matter how
their texts were supplied. -/
theorem texts_are_tidy :
    (∀ (e : Element) (edits : List Edit), e.HasTidyTexts →
      (∀ edit ∈ edits, ∀ d ∈ edit.added, d.HasTidyTexts) → (e.edited edits).HasTidyTexts) ∧
    (∀ name, (Element.new name).HasTidyTexts) ∧
    (∀ bytes e, parse bytes = .ok e →
      e.HasTidyTexts ∧
        ∃ marks, Event.allMarks (Event.trail bytes).items = .ok marks ∧
          e.letters = (withinRoot 0 marks).flatMap Mark.letters) ∧
    (∀ (e : Element) (s t : String), (e.text s).text t = e.text (s ++ t)) ∧
    (∀ (e : Element) (edits others : List Edit),
      edits.flatMap Edit.letters = others.flatMap Edit.letters →
        e.edited edits = e.edited others) ∧
    ∀ e f : Element, e.HasTidyTexts → f.HasTidyTexts → (e = f ↔ e.letters = f.letters) := by
  refine ⟨?_, ?_, ?_, Element.text_text, ?_, ?_⟩
  · intro e edits he hadded
    exact Element.hasTidyTexts_edited he hadded
  · intro name
    exact Element.hasTidyTexts_iff.2 rfl
  · intro bytes e hparse
    obtain ⟨marks, hmarks, hfold⟩ := exists_marks_of_parse hparse
    have hshown : e.alone.marks = joined (withinRoot 0 marks) := by
      apply Builder.marks_of_finish
      rw [hfold]
      rfl
    refine ⟨hasTidyTexts_of_parse hparse, marks, hmarks, ?_⟩
    rw [Element.letters, hshown, Mark.flatMap_letters_joined]
  · intro e edits others hsame
    rw [← e.edited_flatMap_letters edits, hsame, e.edited_flatMap_letters]
  · intro e f he hf
    exact ⟨congrArg Element.letters, Element.eq_of_letters_eq he hf⟩

/-- An element that was read, its text in four pieces, is the one that is built with the same
text in three pieces. -/
theorem texts_are_tidy_read_and_built :
    let bytes := Utf8.encode "<a k='v'>x<!-- -->y<![CDATA[<z>]]>&amp;<b/></a>"
    let edits : List Edit :=
      [.text "", .text "x", .attr "k" "v", .text "y<z", .text ">&", .children [.new "b"], .text ""]
    parse bytes = .ok ((Element.new "a").edited edits) ∧
      ((Element.new "a").edited edits).HasTidyTexts := by
  intro bytes edits
  obtain ⟨hedited, hnew, hread, -, -, hequal⟩ := texts_are_tidy
  have hbuilt : ((Element.new "a").edited edits).HasTidyTexts := by
    apply hedited _ _ (hnew "a")
    simp [edits, Edit.added, hnew]
  have hletters : (parse bytes).toOption.map Element.letters =
      some ((Element.new "a").edited edits).letters := by
    decide +kernel
  cases hparse : parse bytes with
  | error p =>
    rw [hparse] at hletters
    cases hletters
  | ok e =>
    rw [hparse] at hletters
    have hsame : e.letters = ((Element.new "a").edited edits).letters := Option.some.inj hletters
    rw [(hequal e _ (hread bytes e hparse).1 hbuilt).2 hsame]
    exact ⟨rfl, hbuilt⟩

end Xml
end PimDav
