import PimDav.Proofs.Xml.Built
import PimDav.Proofs.Xml.Retagged

/-!
# Searching elements

A search goes by local names and texts alone, so it finds in an element that was
read what it would have found in the element that was written.  In a built
element it finds the nodes in the order in which they were added.
-/

namespace PimDav
namespace Xml

/-- The local name after a prefix. -/
theorem localPart_append_colon
    {name : String}
    (hname : ':' ∉ name.toList)
    (start : String) :
    localPart (start ++ ":" ++ name) = name := by
  have hchars :
      (start ++ ":" ++ name).toList.reverse =
        name.toList.reverse ++ ':' :: start.toList.reverse := by
    simp
  have hfree : ∀ c ∈ name.toList.reverse, (c != ':') = true := by
    intro c hc
    rw [bne_iff_ne]
    rintro rfl
    exact hname (List.mem_reverse.1 hc)
  rw [localPart, hchars, List.takeWhile_append_of_pos hfree, List.takeWhile_cons]
  simp

theorem localPart_of_not_mem
    {name : String}
    (hname : ':' ∉ name.toList) :
    localPart name = name := by
  have hfree : ∀ c ∈ name.toList.reverse, (c != ':') = true := by
    intro c hc
    rw [bne_iff_ne]
    rintro rfl
    exact hname (List.mem_reverse.1 hc)
  have hall : name.toList.reverse.takeWhile (· != ':') = name.toList.reverse := by
    rw [← List.append_nil name.toList.reverse, List.takeWhile_append_of_pos hfree]
    rfl
  rw [localPart, hall, List.reverse_reverse, String.ofList_toList]

/-! To forget namespaces is to change tags that keep their names. -/

theorem Tag.keepsNames_withoutSpace :
    Tag.KeepsNames Tag.withoutSpace where
  localName _ := rfl
  attributes _ := rfl

namespace Content

theorem retag_withoutSpace
    (c : Content) :
    c.retag Tag.withoutSpace = c.withoutSpaces := by
  induction c with
  | nothing => rfl
  | text v after ih => rw [retag, withoutSpaces, ih]
  | element tag inside after ihInside ihAfter =>
    rw [retag, withoutSpaces, ihInside, ihAfter]

theorem characters_withoutSpaces
    (c : Content) :
    c.withoutSpaces.characters = c.characters := by
  rw [← retag_withoutSpace, characters_retag]

/-- The elements that are found in an added element come last. -/
theorem descendants_addElement
    (wanted : String)
    (e : Element)
    (c : Content) :
    (c.addElement e).descendants wanted =
      c.descendants wanted ++ e.alone.descendants wanted := by
  induction c with
  | nothing => rw [addElement, descendants, List.nil_append, Element.alone]
  | text v after ih => exact ih
  | element tag inside after _ ih =>
    rw [addElement, descendants, descendants, ih]
    cases tag.is wanted with
    | true => simp
    | false => simp

/-- A search that stops early finds the first of all elements. -/
theorem firstDescendant?_eq_head?
    (wanted : String)
    (c : Content) :
    c.firstDescendant? wanted = (c.descendants wanted).head? := by
  induction c with
  | nothing => rfl
  | text v after ih => exact ih
  | element tag inside after ihInside ihAfter =>
    rw [firstDescendant?, descendants, ihInside, ihAfter]
    cases tag.is wanted with
    | true => rfl
    | false => cases hinside : inside.descendants wanted <;> simp

end Content

namespace Element

theorem retag_withoutSpace
    (e : Element) :
    e.retag Tag.withoutSpace = e.withoutSpaces :=
  congrArg (Element.mk e.tag.withoutSpace) (Content.retag_withoutSpace e.content)

theorem descendants_withoutSpaces
    (e : Element)
    (wanted : String) :
    e.withoutSpaces.descendants wanted = (e.descendants wanted).map withoutSpaces := by
  rw [← retag_withoutSpace, descendants_retag Tag.keepsNames_withoutSpace]
  exact List.map_congr_left fun d _ => retag_withoutSpace d

/-! What is found in built elements. -/

@[simp] theorem is_child
    (e added : Element)
    (wanted : String) :
    (e.child added).is wanted = e.is wanted := by
  rfl

@[simp] theorem is_text
    (e : Element)
    (s wanted : String) :
    (e.text s).is wanted = e.is wanted := by
  rfl

@[simp] theorem tag_children
    (e : Element)
    (added : List Element) :
    (e.children added).tag = e.tag := by
  induction added generalizing e with
  | nil => rfl
  | cons d added ih => exact ih (e.child d)

@[simp] theorem is_children
    (e : Element)
    (added : List Element)
    (wanted : String) :
    (e.children added).is wanted = e.is wanted :=
  congrArg (Tag.is · wanted) (tag_children e added)

/-- What reads something more from every child that is added reads it from all of them in
their order. -/
theorem append_children
    {α : Type}
    {f g : Element → List α}
    (hchild : ∀ e d, f (e.child d) = f e ++ g d)
    (e : Element)
    (added : List Element) :
    f (e.children added) = f e ++ added.flatMap g := by
  induction added generalizing e with
  | nil => exact (List.append_nil _).symm
  | cons d added ih =>
    have hrest := ih (e.child d)
    rw [hchild, List.append_assoc] at hrest
    exact hrest

/-- Attributes are no content. -/
theorem content_foldl_attr
    (attributes : List (String × String))
    (e : Element) :
    (attributes.foldl (fun e a => e.attr a.1 a.2) e).content = e.content := by
  induction attributes generalizing e with
  | nil => rfl
  | cons a attributes ih => exact ih (e.attr a.1 a.2)

@[simp] theorem elements_new
    (name : String) :
    (new name).elements = [] := by
  rfl

@[simp] theorem elements_child
    (e added : Element) :
    (e.child added).elements = e.elements ++ [added] :=
  Content.elements_addElement added e.content

@[simp] theorem elements_children
    (e : Element)
    (added : List Element) :
    (e.children added).elements = e.elements ++ added := by
  rw [append_children elements_child, List.flatMap_singleton']

@[simp] theorem textContent_new_text
    (name s : String) :
    ((new name).text s).textContent = s := by
  simp [textContent, text, new, Content.characters]

@[simp] theorem descendants_text
    (e : Element)
    (s wanted : String) :
    (e.text s).descendants wanted = e.descendants wanted :=
  Content.descendants_addText wanted s e.content

@[simp] theorem descendants_child
    (e added : Element)
    (wanted : String) :
    (e.child added).descendants wanted =
      e.descendants wanted ++ added.alone.descendants wanted :=
  Content.descendants_addElement wanted added e.content

/-- What is found in several elements comes in their order. -/
theorem descendants_children
    (e : Element)
    (added : List Element)
    (wanted : String) :
    (e.children added).descendants wanted =
      e.descendants wanted ++ added.flatMap (·.alone.descendants wanted) :=
  append_children (f := (·.descendants wanted)) (descendants_child · · wanted) e added

/-- An element itself comes before what is found below it. -/
theorem descendants_alone
    (e : Element)
    (wanted : String) :
    e.alone.descendants wanted =
      if e.is wanted then e :: e.descendants wanted else e.descendants wanted := by
  have hbelow : Content.descendants wanted e.content ++ Content.descendants wanted .nothing =
      e.descendants wanted :=
    List.append_nil _
  rw [alone, Content.descendants, hbelow]
  rfl

theorem firstDescendant?_eq_head?
    (e : Element)
    (wanted : String) :
    e.firstDescendant? wanted = (e.descendants wanted).head? :=
  Content.firstDescendant?_eq_head? wanted e.content

end Element
end Xml
end PimDav
