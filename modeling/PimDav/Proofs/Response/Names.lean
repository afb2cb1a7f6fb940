import PimDav.Folder
import PimDav.Item
import PimDav.Notification
import PimDav.Proofs.Xml.Search

/-!
# What names are read for

Everything that is read of a response, and of the document of a notification, rests on local
names, attributes and texts.  So it stays the same when tags are changed that keep these: when
namespaces are forgotten, and when names have other prefixes.
-/

namespace PimDav

open Xml (Element Tag)

namespace Response

/-- Two responses of which the same is read. -/
structure ReadsAlike (response other : Element) : Prop where
  href : href? other = href? response
  isOk : isOk other = isOk response
  text : ∀ name, propertyText? other name = propertyText? response name
  folder : Folder.ofResponse other = Folder.ofResponse response
  item : ∀ k, Item.ofResponse k other = Item.ofResponse k response
  notification : Notification.ofResponse? other = Notification.ofResponse? response

theorem ReadsAlike.of_common
    {response other common : Element}
    (h : ReadsAlike response common)
    (hother : ReadsAlike other common) :
    ReadsAlike response other where
  href := hother.href.symm.trans h.href
  isOk := hother.isOk.symm.trans h.isOk
  text name := (hother.text name).symm.trans (h.text name)
  folder := hother.folder.symm.trans h.folder
  item k := (hother.item k).symm.trans (h.item k)
  notification := hother.notification.symm.trans h.notification

theorem bind_trimmedText?_retag
    {f : Tag → Tag}
    (e : Option Element) :
    (e.map (Element.retag f)).bind Element.trimmedText? = e.bind Element.trimmedText? := by
  cases e with
  | none => rfl
  | some e =>
    rw [Option.map_some, Option.bind_some, Option.bind_some, Element.trimmedText?_retag]

theorem reportsSuccess_retag
    {f : Tag → Tag}
    (status : Option Element) :
    reportsSuccess (status.map (Element.retag f)) = reportsSuccess status := by
  cases status with
  | none => rfl
  | some status =>
    rw [Option.map_some, reportsSuccess, Element.textContent_retag, reportsSuccess]

section Retag

variable {f : Tag → Tag} (hf : Tag.KeepsNames f)

include hf

theorem href?_retag
    (response : Element) :
    href? (response.retag f) = href? response := by
  rw [href?, Element.find?_retag hf, bind_trimmedText?_retag, href?]

theorem isOk_retag
    (response : Element) :
    isOk (response.retag f) = isOk response := by
  rw [isOk, Element.find?_retag hf, reportsSuccess_retag, isOk]

theorem okProps_retag
    (response : Element) :
    okProps (response.retag f) = (okProps response).map (Element.retag f) := by
  have hgroup : isOkGroup ∘ Element.retag f = isOkGroup := by
    funext group
    rw [Function.comp_apply, isOkGroup, Element.is_retag hf, Element.find?_retag hf,
      reportsSuccess_retag, isOkGroup]
  have hprop : (fun e : Element => e.is "prop") ∘ Element.retag f =
      fun e : Element => e.is "prop" := by
    funext e
    exact Element.is_retag hf e "prop"
  have hprops : ∀ group : Element,
      (group.retag f).elements.filter (fun e => e.is "prop") =
        (group.elements.filter fun e => e.is "prop").map (Element.retag f) := by
    intro group
    rw [Element.elements_retag, List.filter_map, hprop]
  rw [okProps, okProps, Element.elements_retag, List.filter_map, hgroup, List.flatMap_map,
    List.map_flatMap]
  simp only [hprops]

theorem property?_retag
    (response : Element)
    (name : String) :
    property? (response.retag f) name = (property? response name).map (Element.retag f) := by
  rw [property?, property?, okProps_retag hf, List.findSome?_map, List.map_findSome?]
  simp only [Function.comp_def, Element.find?_retag hf]

theorem propertyText?_retag
    (response : Element)
    (name : String) :
    propertyText? (response.retag f) name = propertyText? response name := by
  rw [propertyText?, property?_retag hf, bind_trimmedText?_retag, propertyText?]

theorem bind_hrefBelow?_retag
    (property : Option Element) :
    (property.map (Element.retag f)).bind hrefBelow? = property.bind hrefBelow? := by
  cases property with
  | none => rfl
  | some property =>
    rw [Option.map_some, Option.bind_some, Option.bind_some, hrefBelow?,
      Element.firstDescendant?_retag hf, bind_trimmedText?_retag, hrefBelow?]

end Retag
end Response

section Retag

variable {f : Tag → Tag}

theorem bind_firstElement?_retag
    (e : Option Element) :
    (e.map (Element.retag f)).bind Element.firstElement? =
      (e.bind Element.firstElement?).map (Element.retag f) := by
  cases e with
  | none => rfl
  | some e => exact Element.firstElement?_retag e

variable (hf : Tag.KeepsNames f)

include hf

theorem Item.ofResponse_retag
    (k : Kind)
    (response : Element) :
    Item.ofResponse k (response.retag f) = Item.ofResponse k response := by
  have hpayload : ∀ property : Option Element,
      (property.map (Element.retag f)).map Element.textContent =
        property.map Element.textContent := by
    intro property
    cases property with
    | none => rfl
    | some property => exact congrArg some (Element.textContent_retag property)
  rw [Item.ofResponse, Response.href?_retag hf, Response.propertyText?_retag hf,
    Response.property?_retag hf, hpayload, Item.ofResponse]

theorem Folder.ofResponse_retag
    (response : Element) :
    Folder.ofResponse (response.retag f) = Folder.ofResponse response := by
  have hnames : ∀ set : Element,
      ((set.retag f).descendants "comp").filterMap (·.attribute? "name") =
        (set.descendants "comp").filterMap (·.attribute? "name") := by
    intro set
    rw [Element.descendants_retag hf, List.filterMap_map]
    simp only [Function.comp_def, Element.attribute?_retag hf]
  have hlocal : ∀ types : Element,
      (types.retag f).elements.map Element.localName =
        types.elements.map Element.localName := by
    intro types
    rw [Element.elements_retag, List.map_map]
    simp only [Function.comp_def, Element.localName_retag hf]
  rw [Folder.ofResponse, Folder.ofResponse, Response.href?_retag hf]
  simp only [Response.propertyText?_retag hf, Response.property?_retag hf]
  cases Response.property? response "supported-calendar-component-set" <;>
    cases Response.property? response "resourcetype" <;>
      simp only [Option.map_some, Option.map_none, hnames, hlocal]

namespace Notification

/-- A topic goes by a local name. -/
theorem map_ofName_retag
    (e : Option Element) :
    (e.map (Element.retag f)).map (fun t => Topic.ofName t.localName) =
      e.map fun t => Topic.ofName t.localName := by
  rw [Option.map_map]
  simp only [Function.comp_def, Element.localName_retag hf]

theorem ofResponse?_retag
    (response : Element) :
    ofResponse? (response.retag f) = ofResponse? response := by
  rw [ofResponse?, Response.property?_retag hf, bind_firstElement?_retag, Option.map_map,
    Response.href?_retag hf, ofResponse?]
  simp only [Function.comp_def, Element.localName_retag hf]

theorem firstOf?_retag
    (e : Element)
    (name other : String) :
    firstOf? (e.retag f) name other = (firstOf? e name other).map (Element.retag f) := by
  rw [firstOf?, Element.firstDescendant?_retag hf, Element.firstDescendant?_retag hf,
    ← Option.map_or, firstOf?]

theorem topicOf?_retag
    (e : Element) :
    topicOf? (e.retag f) = topicOf? e := by
  have hshown : ∀ elements : List Element,
      (elements.map (Element.retag f)).find?
          (fun child => Text.endsWith "-notification" child.localName) =
        (elements.find? fun child => Text.endsWith "-notification" child.localName).map
          (Element.retag f) := by
    intro elements
    rw [List.find?_map]
    simp only [Function.comp_def, Element.localName_retag hf]
  rw [topicOf?, topicOf?, Element.firstDescendant?_retag hf, bind_firstElement?_retag,
    Element.elements_retag, hshown, ← Option.map_or, map_ofName_retag hf]

theorem ofElement_retag
    (e : Element)
    (href : String) :
    ofElement (e.retag f) href = ofElement e href := by
  have haccess : ∀ a : Option Element,
      ((a.map (Element.retag f)).bind fun a => Access.ofElementName? a.localName) =
        a.bind fun a => Access.ofElementName? a.localName := by
    intro a
    rw [Option.bind_map]
    simp only [Function.comp_def, Element.localName_retag hf]
  have hstatus : ∀ s : InviteStatus,
      ((e.retag f).firstDescendant? s.elementName).isSome =
        (e.firstDescendant? s.elementName).isSome := by
    intro s
    rw [Element.firstDescendant?_retag hf, Option.isSome_map]
  rw [ofElement, ofElement, topicOf?_retag hf, firstOf?_retag hf, firstOf?_retag hf,
    bind_firstElement?_retag, haccess, Response.bind_hrefBelow?_retag hf]
  simp only [hstatus]

end Notification

/-- Nothing that is read of a response depends on more than its tags keep. -/
theorem Response.readsAlike_retag
    (response : Element) :
    ReadsAlike response (response.retag f) where
  href := href?_retag hf response
  isOk := isOk_retag hf response
  text := propertyText?_retag hf response
  folder := Folder.ofResponse_retag hf response
  item k := Item.ofResponse_retag hf k response
  notification := Notification.ofResponse?_retag hf response

end Retag

/-- Nothing that is read of a response depends on its namespaces. -/
theorem Response.readsAlike_withoutSpaces
    (response : Element) :
    ReadsAlike response response.withoutSpaces := by
  rw [← Element.retag_withoutSpace]
  exact readsAlike_retag Tag.keepsNames_withoutSpace response

end PimDav
