import PimDav.Proofs.Xml.Search

/-!
# Elements at any depth

The elements at any depth stand in document order: each one comes before those inside it, and
these before the next one beside it.  A search takes of them the ones that have the name.
-/

namespace PimDav
namespace Xml
namespace Content

/-- The elements at any depth, in document order. -/
def deepElements : Content → List Element
  | nothing => []
  | text _ after => deepElements after
  | element tag inside after => ⟨tag, inside⟩ :: (deepElements inside ++ deepElements after)

@[simp] theorem deepElements_addText
    (s : String)
    (c : Content) :
    (c.addText s).deepElements = c.deepElements := by
  fun_induction addText s c <;> simp_all [deepElements]

@[simp] theorem deepElements_addElement
    (e : Element)
    (c : Content) :
    (c.addElement e).deepElements = c.deepElements ++ e :: e.content.deepElements := by
  induction c with
  | nothing => simp [addElement, deepElements]
  | text v after ih => exact ih
  | element tag inside after _ ih => simp [addElement, deepElements, ih]

theorem deepElements_retag
    {f : Tag → Tag}
    (c : Content) :
    (c.retag f).deepElements = c.deepElements.map (Element.retag f) := by
  induction c with
  | nothing => rfl
  | text v after ih => exact ih
  | element tag inside after ihInside ihAfter =>
    rw [retag, deepElements, ihInside, ihAfter, deepElements, List.map_cons, List.map_append]
    rfl

/-- A search at any depth is one among the elements at any depth. -/
theorem descendants_eq_filter
    (wanted : String)
    (c : Content) :
    c.descendants wanted = c.deepElements.filter (·.is wanted) := by
  induction c with
  | nothing => rfl
  | text v after ih => exact ih
  | element tag inside after ihInside ihAfter =>
    rw [descendants, deepElements, List.filter_cons, List.filter_append, ihInside, ihAfter]
    rfl

end Content

namespace Element

/-- The elements below this one, in document order. -/
def deepElements (e : Element) : List Element :=
  e.content.deepElements

theorem descendants_eq_filter
    (e : Element)
    (wanted : String) :
    e.descendants wanted = e.deepElements.filter (·.is wanted) :=
  Content.descendants_eq_filter wanted e.content

theorem deepElements_retag
    {f : Tag → Tag}
    (e : Element) :
    (e.retag f).deepElements = e.deepElements.map (retag f) :=
  Content.deepElements_retag e.content

theorem deepElements_withoutSpaces
    (e : Element) :
    e.withoutSpaces.deepElements = e.deepElements.map withoutSpaces := by
  rw [← retag_withoutSpace, deepElements_retag]
  exact List.map_congr_left fun d _ => retag_withoutSpace d

@[simp] theorem deepElements_new
    (name : String) :
    (new name).deepElements = [] :=
  rfl

@[simp] theorem deepElements_text
    (e : Element)
    (s : String) :
    (e.text s).deepElements = e.deepElements :=
  Content.deepElements_addText s e.content

@[simp] theorem deepElements_child
    (e added : Element) :
    (e.child added).deepElements = e.deepElements ++ added :: added.deepElements :=
  Content.deepElements_addElement added e.content

@[simp] theorem deepElements_children
    (e : Element)
    (added : List Element) :
    (e.children added).deepElements =
      e.deepElements ++ added.flatMap fun d => d :: d.deepElements :=
  append_children deepElements_child e added

end Element
end Xml
end PimDav
