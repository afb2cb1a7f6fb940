import PimDav.Xml.Element

/-!
# Built elements

Elements are built from a name, one attribute, element or text at a time.
Whatever the order of these steps, no text of a built element is empty, no two
texts stand side by side, and nothing is known of namespaces.  In content of
that kind every node is seen again when the nodes are added one by one.
-/

namespace PimDav
namespace Xml

/-- The elements that can be built. -/
inductive Built : Element → Prop where
  | new
      (name : String) :
      Built (.new name)
  | attr
      {e : Element}
      (he : Built e)
      (key value : String) :
      Built (e.attr key value)
  | child
      {e added : Element}
      (he : Built e)
      (hadded : Built added) :
      Built (e.child added)
  | text
      {e : Element}
      (he : Built e)
      (s : String) :
      Built (e.text s)

namespace Tag

/-- The tag without what was found out about its namespace. -/
def withoutSpace (tag : Tag) : Tag :=
  { tag with space := none }

end Tag

namespace Content

/-- The content without what was found out about namespaces. -/
def withoutSpaces : Content → Content
  | nothing => nothing
  | text v after => text v (withoutSpaces after)
  | element tag inside after =>
    element tag.withoutSpace (withoutSpaces inside) (withoutSpaces after)

def beginsWithText : Content → Bool
  | text .. => true
  | _ => false

def endsWithText : Content → Bool
  | nothing => false
  | text _ after => after.isNothing || endsWithText after
  | element _ _ after => endsWithText after

/-- Whether no text is empty and no two texts stand side by side, at any depth. -/
def isJoined : Content → Bool
  | nothing => true
  | text v after => !v.isEmpty && !after.beginsWithText && isJoined after
  | element _ inside after => isJoined inside && isJoined after

/-- One content and then another, as they are. -/
def append : Content → Content → Content
  | nothing, d => d
  | text v after, d => text v (append after d)
  | element tag inside after, d => element tag inside (append after d)

/-- The content with the nodes of another one added one after another. -/
def addAll : Content → Content → Content
  | c, nothing => c
  | c, text v after => addAll (c.addText v) after
  | c, element tag inside after => addAll (c.addElement ⟨tag, inside⟩) after

theorem eq_nothing_of_isNothing
    {c : Content}
    (hc : c.isNothing = true) :
    c = nothing := by
  cases c with
  | nothing => rfl
  | text v after => cases hc
  | element tag inside after => cases hc

theorem append_assoc
    (b c d : Content) :
    (b.append c).append d = b.append (c.append d) := by
  induction b with
  | nothing => rfl
  | text v after ih => simp [append, ih]
  | element tag inside after _ ih => simp [append, ih]

@[simp] theorem append_nothing
    (c : Content) :
    c.append nothing = c := by
  induction c with
  | nothing => rfl
  | text v after ih => simp [append, ih]
  | element tag inside after _ ih => simp [append, ih]

theorem addElement_eq_append
    (e : Element)
    (c : Content) :
    c.addElement e = c.append e.alone := by
  induction c with
  | nothing => rfl
  | text v after ih => simp [addElement, append, ih]
  | element tag inside after _ ih => simp [addElement, append, ih]

theorem addText_text
    {after : Content}
    (hafter : after.isNothing = false)
    (v s : String) :
    (text v after).addText s = text v (after.addText s) := by
  cases after with
  | nothing => cases hafter
  | text w more => rw [addText]; simp
  | element tag inside more => rw [addText]; simp

/-- A text becomes a node of its own unless there is a text to join. -/
theorem addText_eq_append
    {c : Content}
    {s : String}
    (hend : c.endsWithText = false)
    (hs : s.isEmpty = false) :
    c.addText s = c.append (text s nothing) := by
  induction c with
  | nothing => simp [addText, append, hs]
  | text v after ih =>
    simp only [endsWithText, Bool.or_eq_false_iff] at hend
    rw [addText_text hend.1, ih hend.2, append]
  | element tag inside after _ ih =>
    rw [addText, ih hend, append]

theorem isNothing_addText
    (s : String)
    {c : Content}
    (hc : c.isNothing = false) :
    (c.addText s).isNothing = false := by
  cases c with
  | nothing => cases hc
  | text v after => cases after <;> rfl
  | element tag inside after => rfl

theorem beginsWithText_addText
    (s : String)
    {c : Content}
    (hc : c.isNothing = false) :
    (c.addText s).beginsWithText = c.beginsWithText := by
  cases c with
  | nothing => cases hc
  | text v after => cases after <;> rfl
  | element tag inside after => rfl

/-- Texts added one after another are one text. -/
theorem addText_addText
    (s t : String)
    (c : Content) :
    (c.addText s).addText t = c.addText (s ++ t) := by
  induction c with
  | nothing =>
    cases hs : s.isEmpty with
    | true =>
      have hempty : s = "" := String.isEmpty_iff.1 hs
      simp [hempty]
    | false =>
      have hne : s ≠ "" := fun h => by simp [h] at hs
      simp [addText, hne]
  | text v after ih =>
    cases hafter : after.isNothing with
    | true =>
      rw [eq_nothing_of_isNothing hafter]
      simp [addText, String.append_assoc]
    | false =>
      rw [addText_text hafter, addText_text hafter, addText_text (isNothing_addText s hafter), ih]
  | element tag inside after _ ih => simp [addText, ih]

@[simp] theorem endsWithText_addElement
    (e : Element)
    (c : Content) :
    (c.addElement e).endsWithText = false := by
  induction c with
  | nothing => rfl
  | text v after ih =>
    have hne : (after.addElement e).isNothing = false := by cases after <;> rfl
    simp [addElement, endsWithText, hne, ih]
  | element tag inside after _ ih => simpa [addElement, endsWithText] using ih

/-- Nodes that are added one after another stay as they are, unless a text meets a
text. -/
theorem addAll_eq_append
    {c d : Content}
    (hjoined : d.isJoined = true)
    (hmeet : c.endsWithText = false ∨ d.beginsWithText = false) :
    c.addAll d = c.append d := by
  induction d generalizing c with
  | nothing => simp [addAll]
  | text v after ih =>
    simp only [isJoined, Bool.and_eq_true, Bool.not_eq_true'] at hjoined
    obtain ⟨⟨hv, hbegin⟩, hafter⟩ := hjoined
    have hend : c.endsWithText = false := by
      rcases hmeet with hend | hbegin
      · exact hend
      · cases hbegin
    rw [addAll, ih hafter (Or.inr hbegin), addText_eq_append hend hv, append_assoc]
    rfl
  | element tag inside after _ ih =>
    simp only [isJoined, Bool.and_eq_true] at hjoined
    rw [addAll, ih hjoined.2 (Or.inl (endsWithText_addElement _ c)), addElement_eq_append,
      append_assoc]
    rfl

theorem nothing_addAll
    {c : Content}
    (hjoined : c.isJoined = true) :
    nothing.addAll c = c := by
  rw [addAll_eq_append hjoined (Or.inl rfl)]
  rfl

theorem isJoined_addText
    (s : String)
    {c : Content}
    (hjoined : c.isJoined = true) :
    (c.addText s).isJoined = true := by
  induction c with
  | nothing =>
    cases hs : s.isEmpty with
    | true => simp [addText, hs, isJoined]
    | false => simp [addText, hs, isJoined, beginsWithText]
  | text v after ih =>
    simp only [isJoined, Bool.and_eq_true, Bool.not_eq_true'] at hjoined
    obtain ⟨⟨hv, hbegin⟩, hafter⟩ := hjoined
    cases hnothing : after.isNothing with
    | true =>
      have hne : v ≠ "" := fun h => by simp [h] at hv
      rw [eq_nothing_of_isNothing hnothing]
      simp [addText, isJoined, beginsWithText, hne]
    | false =>
      rw [addText_text hnothing, isJoined, beginsWithText_addText s hnothing, hv, hbegin, ih hafter]
      rfl
  | element tag inside after _ ih =>
    simp only [isJoined, Bool.and_eq_true] at hjoined
    simp [addText, isJoined, hjoined.1, ih hjoined.2]

theorem isJoined_addElement
    {e : Element}
    {c : Content}
    (he : e.content.isJoined = true)
    (hjoined : c.isJoined = true) :
    (c.addElement e).isJoined = true := by
  induction c with
  | nothing => simp [addElement, isJoined, he]
  | text v after ih =>
    simp only [isJoined, Bool.and_eq_true, Bool.not_eq_true'] at hjoined
    obtain ⟨⟨hv, hbegin⟩, hafter⟩ := hjoined
    have hstill : (after.addElement e).beginsWithText = false := by
      cases after with
      | nothing => rfl
      | text w more => cases hbegin
      | element tag inside more => rfl
    simp [addElement, isJoined, hv, hstill, ih hafter]
  | element tag inside after _ ih =>
    simp only [isJoined, Bool.and_eq_true] at hjoined
    simp [addElement, isJoined, hjoined.1, ih hjoined.2]

theorem withoutSpaces_addText
    (s : String)
    (c : Content) :
    (c.addText s).withoutSpaces = c.withoutSpaces.addText s := by
  induction c with
  | nothing => cases hs : s.isEmpty <;> simp [addText, hs, withoutSpaces]
  | text v after ih =>
    cases after with
    | nothing => rfl
    | text w more => rw [addText_text rfl, withoutSpaces, ih]; rfl
    | element tag inside more => rw [addText_text rfl, withoutSpaces, ih]; rfl
  | element tag inside after _ ih => simp [addText, withoutSpaces, ih]

theorem withoutSpaces_addElement
    (e : Element)
    (c : Content) :
    (c.addElement e).withoutSpaces =
      c.withoutSpaces.addElement ⟨e.tag.withoutSpace, e.content.withoutSpaces⟩ := by
  induction c with
  | nothing => rfl
  | text v after ih => simp [addElement, withoutSpaces, ih]
  | element tag inside after _ ih => simp [addElement, withoutSpaces, ih]

end Content

namespace Element

/-- Texts added one after another are one text. -/
theorem text_text
    (e : Element)
    (s t : String) :
    (e.text s).text t = e.text (s ++ t) := by
  rw [text, text, text, Content.addText_addText]

/-- The element without what was found out about namespaces. -/
def withoutSpaces (e : Element) : Element :=
  ⟨e.tag.withoutSpace, e.content.withoutSpaces⟩

theorem withoutSpaces_attr
    (e : Element)
    (key value : String) :
    (e.attr key value).withoutSpaces = e.withoutSpaces.attr key value := by
  rfl

theorem withoutSpaces_child
    (e added : Element) :
    (e.child added).withoutSpaces = e.withoutSpaces.child added.withoutSpaces := by
  simp [withoutSpaces, child, Content.withoutSpaces_addElement]

theorem withoutSpaces_text
    (e : Element)
    (s : String) :
    (e.text s).withoutSpaces = e.withoutSpaces.text s := by
  simp [withoutSpaces, text, Content.withoutSpaces_addText]

end Element

namespace Built

/-- Several elements are added one after another. -/
theorem children
    {e : Element}
    {added : List Element}
    (he : Built e)
    (hadded : ∀ d ∈ added, Built d) :
    Built (e.children added) := by
  apply List.foldlRecOn added Element.child he
  intro e he d hd
  exact he.child (hadded d hd)

/-- The texts of a built element are joined. -/
theorem isJoined
    {e : Element}
    (hbuilt : Built e) :
    e.content.isJoined = true := by
  induction hbuilt with
  | new name => rfl
  | attr he key value ih => exact ih
  | child he hadded ihe ihadded => exact Content.isJoined_addElement ihadded ihe
  | text he s ih => exact Content.isJoined_addText s ih

/-- Nothing is known of the namespaces of a built element. -/
theorem withoutSpaces
    {e : Element}
    (hbuilt : Built e) :
    e.withoutSpaces = e := by
  induction hbuilt with
  | new name => rfl
  | attr he key value ih => rw [Element.withoutSpaces_attr, ih]
  | child he hadded ihe ihadded => rw [Element.withoutSpaces_child, ihe, ihadded]
  | text he s ih => rw [Element.withoutSpaces_text, ih]

end Built
end Xml
end PimDav
