import PimDav.Folder
import PimDav.Proofs.Response.Multistatus
import PimDav.Proofs.Response.Names

/-!
# What a server tells of folders

A folder is created by a document that lists its properties, and a server may tell of it
with this very list.  The list and what is read of it have conventions of their own for
every property, and they agree: the folder that is read is the one that was written.
-/

namespace PimDav

open Xml (Built Element)

namespace Text

/-- A digit is no blank. -/
theorem isBlank_of_isHexDigit
    {d : Char}
    (hd : isHexDigit d = true) :
    isBlank d = false := by
  have hrange : 48 ≤ d.toNat ∧ d.toNat ≤ 102 := by
    unfold isHexDigit digitValue? at hd
    simp only [Bool.and_eq_true, decide_eq_true_eq] at hd
    split at hd
    · omega
    · split at hd
      · omega
      · split at hd
        · omega
        · cases hd
  simp [isBlank]
  omega

/-- A trimmed text with anything in it stays what it is. -/
theorem trimmed?_of_trim_eq
    {s : String}
    (hsome : s ≠ "")
    (htrim : trim s = s) :
    trimmed? s = some s := by
  rw [trimmed?, htrim, if_neg fun hempty => hsome (String.isEmpty_iff.1 hempty)]

end Text

namespace Folder

/-- The list of properties in the document that creates a folder. -/
def createdProps? (f : Folder) : Option Element :=
  (f.creation.find? "set").bind (·.find? "prop")

/-- A folder all of whose metadata can be said when it is created, and said back. -/
structure IsWritable (f : Folder) : Prop where
  displayName : ∀ n, f.displayName = some n → n ≠ "" ∧ Text.trim n = n
  changeTag : f.changeTag = none
  color : ∀ c, f.color = some c →
    6 ≤ c.toList.length ∧ c.toList.length ≤ 8 ∧ ∀ d ∈ c.toList, Text.isHexDigit d = true
  types : f.resourceTypes = ["collection", "calendar"] ∨
    f.resourceTypes = ["collection", "addressbook"] ∧ f.components = []

/-! The properties that are written, each with its name. -/

def typesProperty (f : Folder) : Element :=
  let types := Element.new "d:resourcetype" |>.child (.new "d:collection")
  match f.collectionType? with
  | some (type, _) => types.child (.new type)
  | none => types

def componentsProperty? (f : Folder) : Option Element :=
  if f.hasResourceType "calendar" && !f.components.isEmpty then
    some ((Element.new "c:supported-calendar-component-set").children
      (f.components.map fun name => (Element.new "c:comp").attr "name" name))
  else none

/-- The properties in the order in which they are written; some of them may be missing. -/
def slots (f : Folder) : List (String × Option Element) :=
  [("resourcetype", some f.typesProperty),
    ("supported-calendar-component-set", f.componentsProperty?),
    ("displayname", f.displayName.map (Element.new "d:displayname").text),
    ("calendar-color",
      f.color.map fun c => (Element.new "a:calendar-color").text (writtenColor c)),
    ("alarms",
      f.alarms.map fun a => (Element.new "k:alarms").text (if a then "true" else "false"))]

theorem fixedProperties_eq
    (f : Folder) :
    f.fixedProperties = f.typesProperty :: f.componentsProperty?.toList := by
  rw [fixedProperties, componentsProperty?]
  cases f.hasResourceType "calendar" && !f.components.isEmpty <;> rfl

theorem mutableProperties_eq
    (f : Folder) :
    f.mutableProperties =
      (f.displayName.map (Element.new "d:displayname").text).toList ++
        ((f.color.map fun c => (Element.new "a:calendar-color").text (writtenColor c)).toList ++
          (f.alarms.map fun a =>
            (Element.new "k:alarms").text (if a then "true" else "false")).toList) := by
  unfold mutableProperties
  cases f.displayName <;> cases f.color <;> cases f.alarms <;> rfl

theorem properties_eq
    (f : Folder) :
    f.fixedProperties ++ f.mutableProperties = f.slots.flatMap (·.2.toList) := by
  rw [fixedProperties_eq, mutableProperties_eq]
  simp [slots]

theorem find?_set_settingDocument
    (root : String)
    (spaces : List (String × String))
    (properties : List Element) :
    ((settingDocument root spaces properties).find? "set").bind (·.find? "prop") =
      some ((Element.new "d:prop").children properties) := by
  have hnothing : (spaces.foldl (fun e s => e.attr s.1 s.2) (Element.new root)).elements = [] := by
    rw [Element.elements, Element.content_foldl_attr]
    rfl
  have hset : (Element.new "d:set").is "set" = true := by decide
  have hprop : (Element.new "d:prop").is "prop" = true := by decide
  simp [settingDocument, Element.find?, hnothing, hset, hprop]

theorem createdProps?_eq
    (f : Folder) :
    f.createdProps? =
      some ((Element.new "d:prop").children (f.slots.flatMap (·.2.toList))) := by
  rw [createdProps?, creation, find?_set_settingDocument, properties_eq]

/-- The names of the properties. -/
def propertyNames : List String :=
  ["resourcetype", "supported-calendar-component-set", "displayname", "calendar-color", "alarms"]

theorem fst_mem_propertyNames
    {f : Folder}
    {slot : String × Option Element}
    (hslot : slot ∈ f.slots) :
    slot.1 ∈ propertyNames :=
  List.mem_map_of_mem (f := Prod.fst) hslot

/-- A part of an answer: it has a name, can be written and read back, and nothing inside is
taken for a response. -/
structure IsPart
    (name : String)
    (e : Element) : Prop where
  localName : e.localName = name
  built : Built e
  isWellFormed : e.isWellFormed = true
  noResponse : e.descendants "response" = []

namespace IsPart

variable {name other : String} {e added : Element}

theorem new
    {tag : String}
    (hname : (Element.new tag).localName = name)
    (hwf : (Element.new tag).isWellFormed = true) :
    IsPart name (Element.new tag) where
  localName := hname
  built := .new tag
  isWellFormed := hwf
  noResponse := rfl

theorem text
    (he : IsPart name e)
    (s : String) :
    IsPart name (e.text s) where
  localName := he.localName
  built := he.built.text s
  isWellFormed := (Element.isWellFormed_text e s).trans he.isWellFormed
  noResponse := (Element.descendants_text e s "response").trans he.noResponse

theorem child
    (he : IsPart name e)
    (hadded : IsPart other added)
    (hother : Text.caseless other "response" = false) :
    IsPart name (e.child added) where
  localName := he.localName
  built := he.built.child hadded.built
  isWellFormed := by rw [Element.isWellFormed_child, he.isWellFormed, hadded.isWellFormed]; rfl
  noResponse := by
    have his : added.is "response" = false :=
      (congrArg (Text.caseless · "response") hadded.localName).trans hother
    rw [Element.descendants_child, he.noResponse, Element.descendants_alone, his,
      hadded.noResponse]
    rfl

theorem children
    {added : List Element}
    (he : IsPart name e)
    (hadded : ∀ d ∈ added,
      ∃ other, IsPart other d ∧ Text.caseless other "response" = false) :
    IsPart name (e.children added) := by
  apply List.foldlRecOn added Element.child he
  intro e he d hd
  obtain ⟨other, hpart, hother⟩ := hadded d hd
  exact he.child hpart hother

end IsPart

/-- A component may have any name. -/
theorem isPart_component
    (name : String) :
    IsPart "comp" ((Element.new "c:comp").attr "name" name) where
  localName := (by decide : (Element.new "c:comp").localName = "comp")
  built := .attr (.new "c:comp") "name" name
  isWellFormed := by
    have hkey : (Utf8.encode "xmlns").isPrefixOf? (Utf8.encode "name") = none := by
      decide +kernel
    have hname : Xml.isName "c:comp" = true ∧ Xml.isName "name" = true ∧
        Text.beginsWith "!" "c:comp" = false ∧ Text.beginsWith "?" "c:comp" = false := by
      decide +kernel
    simp [Element.isWellFormed, Xml.Tag.isWellFormed, Element.attr, Element.new,
      Xml.Content.isWellFormed, Xml.Binding.ofAttribute, Xml.RawAttribute.written, hkey, hname]
  noResponse := rfl

theorem isPart_typesProperty
    (f : Folder) :
    IsPart "resourcetype" f.typesProperty := by
  have hcollection : IsPart "collection" (Element.new "d:collection") :=
    .new (by decide) (by decide +kernel)
  have haddressbook : IsPart "addressbook" (Element.new "c:addressbook") :=
    .new (by decide) (by decide +kernel)
  have hcalendar : IsPart "calendar" (Element.new "c:calendar") :=
    .new (by decide) (by decide +kernel)
  have htypes : IsPart "resourcetype"
      ((Element.new "d:resourcetype").child (.new "d:collection")) :=
    .child (.new (by decide) (by decide +kernel)) hcollection (by decide)
  unfold typesProperty collectionType?
  cases f.hasResourceType "addressbook" with
  | true => exact htypes.child haddressbook (by decide)
  | false =>
    cases f.hasResourceType "calendar" with
    | true => exact htypes.child hcalendar (by decide)
    | false => exact htypes

/-- What is in a slot is a property with its name. -/
theorem isPart_slots
    {f : Folder}
    {slot : String × Option Element}
    (hslot : slot ∈ f.slots)
    {e : Element}
    (he : slot.2 = some e) :
    IsPart slot.1 e := by
  simp only [slots, List.mem_cons, List.not_mem_nil, or_false] at hslot
  rcases hslot with rfl | rfl | rfl | rfl | rfl <;> dsimp only at he ⊢
  · obtain rfl := Option.some.inj he
    exact isPart_typesProperty f
  · rw [componentsProperty?, Option.ite_none_right_eq_some] at he
    obtain ⟨-, hset⟩ := he
    obtain rfl := Option.some.inj hset
    have hset : IsPart "supported-calendar-component-set"
        (Element.new "c:supported-calendar-component-set") :=
      .new (by decide) (by decide +kernel)
    apply hset.children
    intro d hd
    obtain ⟨name, -, rfl⟩ := List.mem_map.1 hd
    exact ⟨"comp", isPart_component name, by decide⟩
  · obtain ⟨n, -, rfl⟩ := Option.map_eq_some_iff.1 he
    exact .text (.new (by decide) (by decide +kernel)) n
  · obtain ⟨c, -, rfl⟩ := Option.map_eq_some_iff.1 he
    exact .text (.new (by decide) (by decide +kernel)) _
  · obtain ⟨a, -, rfl⟩ := Option.map_eq_some_iff.1 he
    exact .text (.new (by decide) (by decide +kernel)) _

/-- What is found among the properties is in the slot with its name. -/
theorem find?_slots
    {slots : List (String × Option Element)}
    {wanted : String}
    (hnames : ∀ slot ∈ slots, ∀ e, slot.2 = some e → e.localName = slot.1)
    (hwanted : ∀ slot ∈ slots, Text.caseless slot.1 wanted = (slot.1 == wanted)) :
    (slots.flatMap (·.2.toList)).find? (·.is wanted) =
      slots.findSome? fun slot => if slot.1 == wanted then slot.2 else none := by
  induction slots with
  | nil => rfl
  | cons slot slots ih =>
    obtain ⟨hname, hnames⟩ := List.forall_mem_cons.1 hnames
    obtain ⟨hfirst, hwanted⟩ := List.forall_mem_cons.1 hwanted
    rw [List.flatMap_cons, List.find?_append, ih hnames hwanted, List.findSome?_cons]
    cases hslot : slot.2 with
    | none => simp
    | some e =>
      have his : e.is wanted = (slot.1 == wanted) :=
        (congrArg (Text.caseless · wanted) (hname e hslot)).trans hfirst
      cases hsame : slot.1 == wanted <;> simp [his, hsame]

end Folder

namespace Spelling

variable (sp : Spelling)

/-- The response that tells of a folder with the properties with which it was created. -/
def folderResponse
    (root : String)
    (f : Folder) : Element :=
  named sp.dav "response"
    |>.child (sp.hrefOf (root ++ f.href))
    |>.child ((named sp.dav "propstat").children f.createdProps?.toList
      |>.child (sp.status "200" sp.ok))

/-- Whether all names that a server adds are well-formed and the attributes of the root
acceptable. -/
def namesSoundly : Bool :=
  (sp.answer []).isWellFormed &&
    ["response", "href", "propstat", "status"].all fun name => (named sp.dav name).isWellFormed

end Spelling

namespace Folder

variable {sp : Spelling} {root : String} {f : Folder}

/-- The properties with which a folder was created are the only ones that count. -/
theorem okProps_folderResponse :
    Response.okProps (sp.folderResponse root f) =
      [(Element.new "d:prop").children (f.slots.flatMap (·.2.toList))] := by
  have hhref : Text.caseless "href" "propstat" = false := by decide
  have hprop : (Element.new "d:prop").is "status" = false := by decide
  have hprops : (Element.new "d:prop").is "prop" = true := by decide
  have hstatus : Text.caseless "status" "prop" = false := by decide
  have hok : Response.reportsSuccess (some (sp.status "200" sp.ok)) = true :=
    Spelling.reportsSuccess_status (n := 200) (by decide) (by decide) sp.ok
  simp [Spelling.folderResponse, createdProps?_eq, Response.okProps, Response.isOkGroup,
    Element.find?, Spelling.is_hrefOf, Spelling.is_group, Spelling.is_status, hhref, hprop,
    hprops, hstatus, hok]

theorem property?_folderResponse
    {wanted : String}
    (hwanted : ∀ name ∈ propertyNames, Text.caseless name wanted = (name == wanted)) :
    Response.property? (sp.folderResponse root f) wanted =
      f.slots.findSome? fun slot => if slot.1 == wanted then slot.2 else none := by
  rw [Response.property?, okProps_folderResponse, List.findSome?_singleton, Element.find?,
    Element.elements_children, Element.elements_new, List.nil_append, find?_slots]
  · intro slot hslot e he
    exact (isPart_slots hslot he).localName
  · intro slot hslot
    exact hwanted slot.1 (fst_mem_propertyNames hslot)

/-! What is read of every property. -/

theorem resourceTypes_read
    (hf : f.IsWritable) :
    f.typesProperty.elements.map Element.localName = f.resourceTypes := by
  have hlocal : (Element.new "d:collection").localName = "collection" ∧
      (Element.new "c:calendar").localName = "calendar" ∧
      (Element.new "c:addressbook").localName = "addressbook" := by
    decide
  obtain ⟨hcollection, hcalendar, haddressbook⟩ := hlocal
  rcases hf.types with htypes | ⟨htypes, -⟩
  · have htype : f.collectionType? = some ("c:calendar", Space.calDav) := by
      have hnone : f.hasResourceType "addressbook" = false := by
        rw [hasResourceType, htypes]
        decide
      have hsome : f.hasResourceType "calendar" = true := by
        rw [hasResourceType, htypes]
        decide
      rw [collectionType?, hnone, hsome]
      rfl
    rw [typesProperty, htype, htypes]
    simp [hcollection, hcalendar]
  · have htype : f.collectionType? = some ("c:addressbook", Space.cardDav) := by
      have hsome : f.hasResourceType "addressbook" = true := by
        rw [hasResourceType, htypes]
        decide
      rw [collectionType?, hsome]
      rfl
    rw [typesProperty, htype, htypes]
    simp [hcollection, haddressbook]

/-- The components are written unless there are none. -/
theorem components_read
    (hf : f.IsWritable) :
    (f.componentsProperty? = none ∧ f.components = []) ∨
      ∃ set, f.componentsProperty? = some set ∧
        (set.descendants "comp").filterMap (·.attribute? "name") = f.components := by
  -- Only a calendar may have components, so none is left out.
  by_cases hnone : f.components = []
  · refine Or.inl ⟨?_, hnone⟩
    rw [componentsProperty?, hnone]
    simp
  · have hcalendar : f.hasResourceType "calendar" = true := by
      rcases hf.types with htypes | ⟨-, hempty⟩
      · rw [hasResourceType, htypes]
        decide
      · exact absurd hempty hnone
    have hset : f.componentsProperty? =
        some ((Element.new "c:supported-calendar-component-set").children
          (f.components.map fun name => (Element.new "c:comp").attr "name" name)) := by
      rw [componentsProperty?, hcalendar]
      simp [hnone]
    have hcomp : ∀ name,
        ((Element.new "c:comp").attr "name" name).alone.descendants "comp" =
          [(Element.new "c:comp").attr "name" name] := by
      intro name
      have his : ((Element.new "c:comp").attr "name" name).is "comp" = true :=
        (by decide : (Element.new "c:comp").is "comp" = true)
      rw [Element.descendants_alone, his]
      rfl
    have hname : ∀ name,
        ((Element.new "c:comp").attr "name" name).attribute? "name" = some name := by
      intro name
      simp [Element.attribute?, Xml.Tag.attribute?, Element.attr, Element.new]
    refine Or.inr ⟨_, hset, ?_⟩
    have hnew : (Element.new "c:supported-calendar-component-set").descendants "comp" = [] := rfl
    rw [Element.descendants_children, hnew, List.nil_append, List.flatMap_map]
    simp only [hcomp, ← List.map_eq_flatMap, List.filterMap_map, Function.comp_def, hname,
      List.filterMap_some]

/-- A color is written with a mark in front of its digits, and read without it. -/
theorem readColor?_writtenColor
    {c : String}
    (hshort : 6 ≤ c.toList.length)
    (hlong : c.toList.length ≤ 8)
    (hdigits : ∀ d ∈ c.toList, Text.isHexDigit d = true) :
    (Text.trimmed? (writtenColor c)).bind readColor? = some c := by
  have hmark : writtenColor c = "#" ++ c := by
    have hempty : c.isEmpty = false := by
      obtain ⟨d, hd⟩ := List.exists_mem_of_length_pos (Nat.lt_of_lt_of_le (by decide) hshort)
      exact Text.isEmpty_eq_false_of_mem hd
    have hbegins : Text.beginsWith "#" c = false := by
      rw [← Bool.not_eq_true, Text.beginsWith_iff]
      rintro ⟨rest, rfl⟩
      cases hdigits '#' (by simp)
    rw [writtenColor, hempty, hbegins]
    rfl
  have hchars : ("#" ++ c).toList = '#' :: c.toList := by simp
  have hend : Text.endsBlank ("#" ++ c) = false := by
    rw [Text.endsBlank, hchars]
    cases hlast : ('#' :: c.toList).getLast? with
    | none => rfl
    | some d =>
      rcases List.mem_cons.1 (List.mem_of_getLast? hlast) with rfl | hd
      · decide
      · exact Text.isBlank_of_isHexDigit (hdigits d hd)
  have hafter : Text.after? "#" ("#" ++ c) = some c := Text.after?_eq_some_iff.2 rfl
  have hproper : (6 ≤ c.toList.length && c.toList.length ≤ 8 &&
      c.toList.all Text.isHexDigit) = true := by
    rw [decide_eq_true hshort, decide_eq_true hlong, List.all_eq_true.2 hdigits]
    rfl
  rw [hmark, Text.trimmed?_eq_some hchars (by decide) hend, Option.bind_some, readColor?, hafter,
    Option.bind_some]
  exact if_pos hproper

theorem readFlag?_written
    (a : Bool) :
    (Text.trimmed? (if a then "true" else "false")).bind readFlag? = some a := by
  cases a <;> rfl

/-- A folder is read with all the metadata with which it was written. -/
theorem ofResponse_folderResponse
    {cs : List Char}
    (hf : f.IsWritable)
    (hslash : (root ++ f.href).toList = '/' :: cs)
    (hend : Text.endsBlank (root ++ f.href) = false) :
    ofResponse (sp.folderResponse root f) = { f with href := root ++ f.href } := by
  have hhref : Response.href? (sp.folderResponse root f) = some (root ++ f.href) := by
    have hfind : (sp.folderResponse root f).find? "href" = some (sp.hrefOf (root ++ f.href)) := by
      simp [Spelling.folderResponse, Element.find?, Spelling.is_hrefOf]
    rw [Response.href?, hfind, Option.bind_some, Element.trimmedText?, Spelling.hrefOf,
      Spelling.textContent_named_text]
    exact Text.trimmed?_eq_some hslash (by decide) hend
  have hname : Response.propertyText? (sp.folderResponse root f) "displayname" =
      f.displayName := by
    rw [Response.propertyText?, property?_folderResponse (by decide), slots]
    cases hn : f.displayName with
    | none => simp
    | some n =>
      obtain ⟨hsome, htrim⟩ := hf.displayName n hn
      simp [Element.trimmedText?, Text.trimmed?_of_trim_eq hsome htrim]
  have htag : Response.propertyText? (sp.folderResponse root f) "getctag" = f.changeTag := by
    rw [Response.propertyText?, property?_folderResponse (by decide), slots, hf.changeTag]
    simp
  have hcomponents : Response.property? (sp.folderResponse root f)
      "supported-calendar-component-set" = f.componentsProperty? := by
    rw [property?_folderResponse (by decide), slots]
    cases f.componentsProperty? <;> simp
  have htypes : Response.property? (sp.folderResponse root f) "resourcetype" =
      some f.typesProperty := by
    rw [property?_folderResponse (by decide), slots]
    simp
  have hcolor : (Response.propertyText? (sp.folderResponse root f) "calendar-color").bind
      readColor? = f.color := by
    rw [Response.propertyText?, property?_folderResponse (by decide), slots]
    cases hc : f.color with
    | none => simp
    | some c =>
      obtain ⟨hshort, hlong, hdigits⟩ := hf.color c hc
      simp [Element.trimmedText?, readColor?_writtenColor hshort hlong hdigits]
  have halarms : (Response.propertyText? (sp.folderResponse root f) "alarms").bind
      readFlag? = f.alarms := by
    rw [Response.propertyText?, property?_folderResponse (by decide), slots]
    cases hc : f.alarms with
    | none => simp
    | some a =>
      simp [Element.trimmedText?, readFlag?_written]
  rw [ofResponse, hhref, hname, htag, hcomponents, htypes, hcolor, halarms]
  dsimp only
  rw [resourceTypes_read hf]
  rcases components_read hf with ⟨hnone, hempty⟩ | ⟨set, hset, hread⟩
  · rw [hnone, hempty]
    rfl
  · rw [hset]
    dsimp only
    rw [hread]
    rfl

theorem isPart_named
    {start : Option String}
    {name : String}
    (hname : ':' ∉ name.toList)
    (hwf : (Spelling.named start name).isWellFormed = true) :
    IsPart name (Spelling.named start name) where
  localName := Spelling.localName_named hname start
  built := Spelling.built_named start name
  isWellFormed := hwf
  noResponse := Spelling.descendants_named start name "response"

theorem isPart_props
    (f : Folder) :
    IsPart "prop" ((Element.new "d:prop").children (f.slots.flatMap (·.2.toList))) := by
  apply IsPart.children (.new (by decide) (by decide +kernel))
  intro e he
  obtain ⟨slot, hslot, he⟩ := List.mem_flatMap.1 he
  have hname : ∀ name ∈ propertyNames, Text.caseless name "response" = false := by decide
  exact ⟨slot.1, isPart_slots hslot (Option.mem_toList.1 he),
    hname slot.1 (fst_mem_propertyNames hslot)⟩

/-- A response that tells of a folder can be written and read back, and no other response
stands inside. -/
theorem isPart_folderResponse
    (hsound : sp.namesSoundly = true)
    (root : String)
    (f : Folder) :
    IsPart "response" (sp.folderResponse root f) := by
  simp only [Spelling.namesSoundly, List.all_cons, List.all_nil, Bool.and_true,
    Bool.and_eq_true] at hsound
  obtain ⟨-, hresponse, hhref, hpropstat, hstatus⟩ := hsound
  have hgroup : IsPart "propstat"
      (((Spelling.named sp.dav "propstat").children f.createdProps?.toList).child
        (sp.status "200" sp.ok)) := by
    rw [createdProps?_eq]
    exact ((isPart_named (by decide) hpropstat).child (isPart_props f) (by decide)).child
      ((isPart_named (by decide) hstatus).text _) (by decide)
  exact ((isPart_named (by decide) hresponse).child ((isPart_named (by decide) hhref).text _)
    (by decide)).child hgroup (by decide)

end Folder
end PimDav
