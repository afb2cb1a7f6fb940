import PimDav.Proofs.Xml.Places

/-!
# Documents in one namespace

Many documents use a single namespace: the root binds a prefix, no other element has
attributes, and all names have that prefix.  Such a document is read as the tree that was
written, with every name in that namespace.
-/

namespace PimDav
namespace Xml

namespace Tag

/-- The tag with its name in a namespace. -/
def inSpace
    (space : String)
    (tag : Tag) : Tag :=
  { tag with space := some space }

theorem keepsNames_inSpace
    (space : String) :
    KeepsNames (inSpace space) where
  localName _ := rfl
  attributes _ := rfl

/-- Whether a name has a prefix. -/
def HasPrefix
    (start : String)
    (tag : Tag) : Prop :=
  ∃ name, tag.name = start ++ ":" ++ name

/-- A name is in the namespace that its prefix stands for. -/
theorem placed_of_hasPrefix
    {inForce : List Binding}
    {start space : String}
    {tag : Tag}
    (hspace : Binding.spaceOf inForce start = some space)
    (hstart : ':' ∉ start.toList)
    (htag : tag.HasPrefix start) :
    tag.placed inForce = tag.inSpace space := by
  obtain ⟨name, hname⟩ := htag
  rw [placed, inSpace, hname, Binding.resolve_prefixed hstart, hspace]

end Tag

/-- An element that binds nothing and has a name with a prefix. -/
structure IsPlainIn
    (start : String)
    (e : Element) : Prop where
  attributes : e.tag.attributes = []
  hasPrefix : e.tag.HasPrefix start

theorem isPlainIn_new
    (start name : String) :
    IsPlainIn start (Element.new (start ++ ":" ++ name)) where
  attributes := rfl
  hasPrefix := ⟨name, rfl⟩

/-- What is inside an element does not count. -/
theorem IsPlainIn.of_tag
    {start : String}
    {e other : Element}
    (he : IsPlainIn start e)
    (htag : other.tag = e.tag) :
    IsPlainIn start other where
  attributes := (congrArg Tag.attributes htag).trans he.attributes
  hasPrefix := htag ▸ he.hasPrefix

/-- Whether all elements below another one are like that. -/
def IsPlainBelow
    (start : String)
    (e : Element) : Prop :=
  ∀ d ∈ e.deepElements, IsPlainIn start d

namespace IsPlainBelow

variable {start : String} {e added : Element}

theorem new
    (name : String) :
    IsPlainBelow start (.new name) :=
  List.forall_mem_nil _

theorem attr
    (he : IsPlainBelow start e)
    (key value : String) :
    IsPlainBelow start (e.attr key value) :=
  he

theorem text
    (he : IsPlainBelow start e)
    (s : String) :
    IsPlainBelow start (e.text s) := by
  rwa [IsPlainBelow, Element.deepElements_text]

theorem child
    (he : IsPlainBelow start e)
    (hadded : IsPlainIn start added ∧ IsPlainBelow start added) :
    IsPlainBelow start (e.child added) := by
  rw [IsPlainBelow, Element.deepElements_child]
  exact List.forall_mem_append.2 ⟨he, List.forall_mem_cons.2 hadded⟩

theorem children
    {added : List Element}
    (he : IsPlainBelow start e)
    (hadded : ∀ d ∈ added, IsPlainIn start d ∧ IsPlainBelow start d) :
    IsPlainBelow start (e.children added) := by
  rw [IsPlainBelow, Element.deepElements_children]
  refine List.forall_mem_append.2 ⟨he, ?_⟩
  intro d hd
  obtain ⟨top, htop, hd⟩ := List.mem_flatMap.1 hd
  exact List.forall_mem_cons.2 (hadded top htop) d hd

end IsPlainBelow

section Placed

variable {inForce : List Binding} {start space : String}

/-- All names are in the namespace that their prefix stands for. -/
theorem Content.placed_eq_retag
    (hspace : Binding.spaceOf inForce start = some space)
    (hstart : ':' ∉ start.toList)
    {c : Content}
    (hplain : ∀ e ∈ c.deepElements, IsPlainIn start e) :
    c.placed inForce = c.retag (Tag.inSpace space) := by
  induction c with
  | nothing => rfl
  | text v after ih => rw [placed, retag, ih hplain]
  | element tag inside after ihInside ihAfter =>
    rw [deepElements, List.forall_mem_cons, List.forall_mem_append] at hplain
    obtain ⟨htag, hinside, hafter⟩ := hplain
    have hdeclared : tag.declared inForce = inForce :=
      Element.declared_of_attributes inForce (e := ⟨tag, inside⟩) htag.attributes
    rw [placed, retag, hdeclared, Tag.placed_of_hasPrefix hspace hstart htag.hasPrefix,
      ihInside hinside, ihAfter hafter]

/-- A document in one namespace is read as the tree that was written. -/
theorem Element.placed_eq_retag
    {e : Element}
    (hspace : Binding.spaceOf (e.tag.declared Binding.builtin) start = some space)
    (hstart : ':' ∉ start.toList)
    (hroot : e.tag.HasPrefix start)
    (hplain : IsPlainBelow start e) :
    e.placed = e.retag (Tag.inSpace space) := by
  rw [placed, retag, Tag.placed_of_hasPrefix hspace hstart hroot,
    Content.placed_eq_retag hspace hstart hplain]

end Placed

namespace Element

/-- Everything in such a document is in the namespace. -/
theorem space_retag_inSpace
    {space : String}
    {e d : Element}
    (hd : d ∈ e.retag (Tag.inSpace space) :: (e.retag (Tag.inSpace space)).deepElements) :
    d.tag.space = some space := by
  rw [deepElements_retag, ← List.map_cons] at hd
  obtain ⟨written, -, rfl⟩ := List.mem_map.1 hd
  rfl

theorem expandedName_retag_inSpace
    (space : String)
    (e : Element) :
    (e.retag (Tag.inSpace space)).expandedName = (e.localName, some space) :=
  rfl

/-- The only node inside an element, if it is an element. -/
def onlyChild? (e : Element) : Option Element :=
  match e.content with
  | .element tag inside .nothing => some ⟨tag, inside⟩
  | _ => none

theorem onlyChild?_retag
    {f : Tag → Tag}
    (e : Element) :
    (e.retag f).onlyChild? = e.onlyChild?.map (retag f) := by
  rw [onlyChild?, onlyChild?, retag]
  cases e.content with
  | nothing => rfl
  | text v after => rfl
  | element tag inside after => cases after <;> rfl

theorem onlyChild?_new_child
    (name : String)
    (e : Element) :
    ((new name).child e).onlyChild? = some e :=
  rfl

/-- A search is successful when there is an element with the name at any depth. -/
theorem isSome_firstDescendant?
    (e : Element)
    (wanted : String) :
    (e.firstDescendant? wanted).isSome = e.deepElements.any (·.is wanted) := by
  rw [firstDescendant?_eq_head?, descendants_eq_filter, List.head?_filter, List.isSome_find?]

end Element
end Xml
end PimDav
