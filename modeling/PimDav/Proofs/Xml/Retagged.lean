import PimDav.Xml.Element

/-!
# Elements with other tags

The tags of an element may be changed at every depth, as when namespaces are forgotten or
prefixes are taken away.  As long as each tag keeps its local name and its attributes, every
search finds the same nodes, and the texts are the same.
-/

namespace PimDav
namespace Xml

namespace Tag

/-- The changes that leave the local name and the attributes of a tag as they are. -/
structure KeepsNames (f : Tag → Tag) : Prop where
  localName : ∀ tag, (f tag).localName = tag.localName
  attributes : ∀ tag, (f tag).attributes = tag.attributes

namespace KeepsNames

variable {f : Tag → Tag} (hf : KeepsNames f)

include hf

theorem is
    (tag : Tag)
    (wanted : String) :
    (f tag).is wanted = tag.is wanted :=
  congrArg (Text.caseless · wanted) (hf.localName tag)

theorem attribute?
    (tag : Tag)
    (key : String) :
    (f tag).attribute? key = tag.attribute? key := by
  rw [Tag.attribute?, hf.attributes, Tag.attribute?]

end KeepsNames
end Tag

namespace Content

/-- The content with all its tags changed. -/
def retag (f : Tag → Tag) : Content → Content
  | nothing => nothing
  | text v after => text v (retag f after)
  | element tag inside after => element (f tag) (retag f inside) (retag f after)

end Content

namespace Element

/-- The element with its own tag and all those inside changed. -/
def retag
    (f : Tag → Tag)
    (e : Element) : Element :=
  ⟨f e.tag, e.content.retag f⟩

end Element

namespace Content

variable {f : Tag → Tag}

theorem elements_retag
    (c : Content) :
    (c.retag f).elements = c.elements.map (Element.retag f) := by
  induction c with
  | nothing => rfl
  | text v after ih => exact ih
  | element tag inside after _ ih =>
    rw [retag, elements, ih]
    rfl

theorem characters_retag
    (c : Content) :
    (c.retag f).characters = c.characters := by
  induction c with
  | nothing => rfl
  | text v after ih => rw [retag, characters, ih, characters]
  | element tag inside after ihInside ihAfter =>
    rw [retag, characters, ihInside, ihAfter, characters]

variable (hf : Tag.KeepsNames f)

include hf

theorem descendants_retag
    (wanted : String)
    (c : Content) :
    (c.retag f).descendants wanted = (c.descendants wanted).map (Element.retag f) := by
  induction c with
  | nothing => rfl
  | text v after ih => exact ih
  | element tag inside after ihInside ihAfter =>
    rw [retag, descendants, descendants, hf.is, ihInside, ihAfter]
    cases tag.is wanted with
    | true => simp [Element.retag]
    | false => simp

theorem firstDescendant?_retag
    (wanted : String)
    (c : Content) :
    (c.retag f).firstDescendant? wanted =
      (c.firstDescendant? wanted).map (Element.retag f) := by
  induction c with
  | nothing => rfl
  | text v after ih => exact ih
  | element tag inside after ihInside ihAfter =>
    rw [retag, firstDescendant?, firstDescendant?, hf.is, ihInside, ihAfter]
    cases tag.is wanted with
    | true => rfl
    | false => cases inside.firstDescendant? wanted <;> rfl

end Content

namespace Element

variable {f : Tag → Tag}

theorem elements_retag
    (e : Element) :
    (e.retag f).elements = e.elements.map (retag f) :=
  Content.elements_retag e.content

theorem firstElement?_retag
    (e : Element) :
    (e.retag f).firstElement? = e.firstElement?.map (retag f) := by
  rw [firstElement?, elements_retag, List.head?_map, firstElement?]

theorem textContent_retag
    (e : Element) :
    (e.retag f).textContent = e.textContent :=
  congrArg String.ofList (Content.characters_retag e.content)

theorem trimmedText?_retag
    (e : Element) :
    (e.retag f).trimmedText? = e.trimmedText? :=
  congrArg Text.trimmed? (textContent_retag e)

variable (hf : Tag.KeepsNames f)

include hf

theorem localName_retag
    (e : Element) :
    (e.retag f).localName = e.localName :=
  hf.localName e.tag

theorem is_retag
    (e : Element)
    (wanted : String) :
    (e.retag f).is wanted = e.is wanted :=
  hf.is e.tag wanted

theorem find?_retag
    (e : Element)
    (wanted : String) :
    (e.retag f).find? wanted = (e.find? wanted).map (retag f) := by
  have hnames : (fun e : Element => e.is wanted) ∘ retag f = fun e => e.is wanted := by
    funext e
    exact is_retag hf e wanted
  rw [find?, elements_retag, List.find?_map, hnames, find?]

theorem descendants_retag
    (e : Element)
    (wanted : String) :
    (e.retag f).descendants wanted = (e.descendants wanted).map (retag f) :=
  Content.descendants_retag hf wanted e.content

theorem firstDescendant?_retag
    (e : Element)
    (wanted : String) :
    (e.retag f).firstDescendant? wanted = (e.firstDescendant? wanted).map (retag f) :=
  Content.firstDescendant?_retag hf wanted e.content

theorem attribute?_retag
    (e : Element)
    (key : String) :
    (e.retag f).attribute? key = e.attribute? key :=
  hf.attribute? e.tag key

end Element
end Xml
end PimDav
