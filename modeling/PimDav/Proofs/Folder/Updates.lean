import PimDav.Proofs.Folder.Spaces

/-!
# What an update says

A folder is created and changed by documents of one builder.  The document that changes it
lists the properties of the one that creates it without the leading ones, which are fixed, and
names these nowhere.
-/

namespace PimDav

open Xml (Content Element)

namespace Xml

/-- A content of elements alone. -/
def Content.ofElements (es : List Element) : Content :=
  es.foldr (fun e after => .element e.tag e.content after) .nothing

namespace Content

theorem addElement_ofElements
    (es : List Element)
    (e : Element) :
    (ofElements es).addElement e = ofElements (es ++ [e]) := by
  induction es with
  | nil => rfl
  | cons d es ih => exact congrArg (element d.tag d.content) ih

end Content

theorem Element.content_children
    {e : Element}
    {es : List Element}
    (he : e.content = .ofElements es)
    (added : List Element) :
    (e.children added).content = .ofElements (es ++ added) := by
  induction added generalizing e es with
  | nil =>
    rw [List.append_nil]
    exact he
  | cons d added ih =>
    have hchild : (e.child d).content = .ofElements (es ++ [d]) := by
      rw [Element.child, he, Content.addElement_ofElements]
    rw [List.append_cons]
    exact ih hchild

theorem Element.content_children_of_nothing
    {e : Element}
    (he : e.content = .nothing)
    (added : List Element) :
    (e.children added).content = .ofElements added := by
  have hnone : e.content = .ofElements [] := he
  exact Element.content_children hnone added

end Xml

namespace Folder

/-- The list of properties is the only element that has its name. -/
theorem descendants_readSetting
    (root : String)
    (spaces : List (String × String))
    {properties : List Element}
    (hproperties : ∀ name ∈ properties.flatMap Element.expandedNames,
      Text.caseless name.1 "prop" = false) :
    (readSetting root spaces properties).descendants "prop" =
      [(Element.newIn Space.dav "d:prop").children properties] := by
  have hset : (Element.newIn Space.dav "d:set").is "prop" = false := by decide
  have hprop : (Element.newIn Space.dav "d:prop").is "prop" = true := by decide
  have hbelow : (properties.flatMap fun d => d :: d.deepElements).filter (·.is "prop") = [] := by
    rw [List.filter_eq_nil_iff]
    intro e he
    obtain ⟨d, hd, he⟩ := List.mem_flatMap.1 he
    have hname : e.expandedName ∈ properties.flatMap Element.expandedNames :=
      List.mem_flatMap.2 ⟨d, hd, List.mem_map_of_mem he⟩
    rw [Element.is_eq_caseless, hproperties _ hname]
    exact Bool.false_ne_true
  have hnothing : ∀ tag : Xml.Tag, ({ tag } : Element).deepElements = [] := fun _ => rfl
  have hnew : ∀ space written, (Element.newIn space written).deepElements = [] := fun _ _ => rfl
  rw [Element.descendants_eq_filter, readSetting]
  simp only [Element.deepElements_child, Element.deepElements_children, hnothing, hnew,
    List.nil_append, List.filter_cons, Element.is_child, Element.is_children, hset, hprop, hbelow]
  rfl

/-! The local names of the properties. -/

theorem fst_of_mem_typeNames
    {f : Folder}
    {name : String × Option String}
    (hname : name ∈ f.typeNames) :
    name.1 ∈ ["resourcetype", "collection", "addressbook", "calendar"] := by
  revert name
  rw [typeNames]
  rcases f.collectionType?_cases with htype | htype | htype <;> rw [htype] <;> decide

theorem fst_of_mem_componentNames
    {f : Folder}
    {name : String × Option String}
    (hname : name ∈ f.componentNames) :
    name.1 ∈ ["supported-calendar-component-set", "comp"] := by
  rw [componentNames, List.mem_ite_nil_right, List.mem_cons, List.mem_map] at hname
  rcases hname with ⟨-, rfl | ⟨-, -, rfl⟩⟩ <;> simp

theorem fst_of_mem_mutableNames
    {f : Folder}
    {name : String × Option String}
    (hname : name ∈ f.mutableNames) :
    name.1 ∈ ["displayname", "calendar-color", "alarms"] := by
  simp only [mutableNames, List.mem_append, Option.mem_toList, Option.map_eq_some_iff] at hname
  rcases hname with ⟨-, -, rfl⟩ | ⟨-, -, rfl⟩ | ⟨-, -, rfl⟩ <;> simp

theorem caseless_prop
    {f : Folder}
    {name : String × Option String}
    (hname : name ∈ f.typeNames ++ (f.componentNames ++ f.mutableNames)) :
    Text.caseless name.1 "prop" = false := by
  have hall : ∀ n ∈ ["resourcetype", "collection", "addressbook", "calendar"] ++
      (["supported-calendar-component-set", "comp"] ++ ["displayname", "calendar-color", "alarms"]),
      Text.caseless n "prop" = false := by
    decide
  apply hall
  rw [List.mem_append, List.mem_append] at hname ⊢
  exact hname.imp fst_of_mem_typeNames
    (Or.imp fst_of_mem_componentNames fst_of_mem_mutableNames)

/-- No name in an update is one of a fixed property. -/
theorem caseless_fixed
    {f : Folder}
    {name : String × Option String}
    (hname : name ∈ f.updatedTree.expandedNames) :
    Text.caseless name.1 "resourcetype" = false ∧
      Text.caseless name.1 "supported-calendar-component-set" = false := by
  have hall : ∀ n ∈ ["propertyupdate", "set", "prop"] ++
      ["displayname", "calendar-color", "alarms"],
      Text.caseless n "resourcetype" = false ∧
        Text.caseless n "supported-calendar-component-set" = false := by
    decide
  apply hall
  rw [expandedNames_updatedTree, List.mem_append] at hname
  rw [List.mem_append]
  exact hname.imp (List.mem_map_of_mem (f := Prod.fst)) fst_of_mem_mutableNames

/-- The fields that an update sets, each with the name and the text of its property. -/
def mutableFields (f : Folder) : List ((String × Option String) × List Element × String) :=
  (f.displayName.map fun n => (("displayname", some Space.dav), [], n)).toList ++
    ((f.color.map fun c => (("calendar-color", some Space.appleIcal), [],
        if c = "" ∨ c.toList.head? = some '#' then c else "#" ++ c)).toList ++
      (f.alarms.map fun a =>
        (("alarms", some Space.kolab), [], if a then "true" else "false")).toList)

theorem writtenColor_eq
    (c : String) :
    writtenColor c = if c = "" ∨ c.toList.head? = some '#' then c else "#" ++ c := by
  have hsharp : Text.beginsWith "#" c = true ↔ c.toList.head? = some '#' := by
    rw [Text.beginsWith_iff, List.head?_eq_some_iff]
    constructor
    · rintro ⟨rest, rfl⟩
      exact ⟨rest.toList, String.toList_append ..⟩
    · rintro ⟨rest, hc⟩
      exact ⟨String.ofList rest, String.toList_inj.1 (by simp [hc])⟩
  rw [writtenColor]
  simp only [Bool.or_eq_true, String.isEmpty_iff, hsharp]

theorem fields_newIn_text
    (space written s : String) :
    let e := (Element.newIn space written).text s
    (e.expandedName, e.elements, e.textContent) = ((Xml.localPart written, some space), [], s) := by
  intro e
  have helements : e.elements = [] := Content.elements_addText s .nothing
  have htext : e.textContent = s := by
    simp [e, Element.textContent, Element.text, Element.newIn, Content.characters]
  rw [helements, htext]
  rfl

theorem readMutable_fields
    (f : Folder) :
    f.readMutable.map (fun e => (e.expandedName, e.elements, e.textContent)) = f.mutableFields := by
  obtain ⟨hname, hcolor, halarms⟩ := localPart_mutable
  rw [readMutable, mutableFields]
  cases f.displayName <;> cases f.color <;> cases f.alarms <;>
    simp [fields_newIn_text, hname, hcolor, halarms, writtenColor_eq]

theorem localName_readTypes
    (f : Folder) :
    f.readTypes.localName = "resourcetype" := by
  have hnames := f.expandedNames_readTypes
  rw [typeNames, Element.expandedNames, List.map_cons, List.cons_append] at hnames
  exact congrArg Prod.fst (List.cons.inj hnames).1

theorem localName_readComponents?
    (f : Folder) :
    f.readComponents?.map Element.localName =
      if f.hasResourceType "calendar" && !f.components.isEmpty then
        some "supported-calendar-component-set"
      else none := by
  have hset : Xml.localPart "c:supported-calendar-component-set" =
      "supported-calendar-component-set" := by
    decide
  rw [readComponents?]
  cases hcalendar : f.hasResourceType "calendar" with
  | false => rfl
  | true =>
    cases f.components.isEmpty with
    | true => rfl
    | false =>
      rw [typeSpace?_of_calendar hcalendar]
      simp [Element.localName, Element.newIn, Xml.Tag.localName, hset]

/-- The document that changes a folder lists what the document that creates it lists, without
the type and the set of components that stand first there; and what it lists are the fields
that are set.  The fixed properties have no place in it, at any depth. -/
theorem update_is_rest_of_creation
    (f : Folder) :
    ∃ created updated createdProps updatedProps types set? changed,
      Xml.parse (Utf8.encode f.creation.document) = .ok created ∧
      Xml.parse (Utf8.encode f.update.document) = .ok updated ∧
      created.descendants "prop" = [createdProps] ∧
      updated.descendants "prop" = [updatedProps] ∧
      createdProps.content = .ofElements (types :: (Option.toList set? ++ changed)) ∧
      updatedProps.content = .ofElements changed ∧
      types.localName = "resourcetype" ∧
      set?.map Element.localName =
        (if f.hasResourceType "calendar" && !f.components.isEmpty then
          some "supported-calendar-component-set"
        else none) ∧
      changed.map (fun e => (e.expandedName, e.elements, e.textContent)) = f.mutableFields ∧
      ∀ e ∈ updated :: updated.deepElements,
        e.is "resourcetype" = false ∧ e.is "supported-calendar-component-set" = false := by
  have hcreated : f.createdTree.descendants "prop" =
      [(Element.newIn Space.dav "d:prop").children
        (f.readTypes :: (f.readComponents?.toList ++ f.readMutable))] := by
    rw [createdTree]
    apply descendants_readSetting
    intro name hname
    rw [List.flatMap_cons, List.flatMap_append, expandedNames_readTypes,
      expandedNames_readComponents?, expandedNames_readMutable] at hname
    exact caseless_prop hname
  have hupdated : f.updatedTree.descendants "prop" =
      [(Element.newIn Space.dav "d:prop").children f.readMutable] := by
    rw [updatedTree]
    apply descendants_readSetting
    intro name hname
    rw [expandedNames_readMutable] at hname
    exact caseless_prop (List.mem_append_right _ (List.mem_append_right _ hname))
  refine ⟨_, _, _, _, f.readTypes, f.readComponents?, f.readMutable,
    f.parse_creation, f.parse_update, hcreated, hupdated,
    Element.content_children_of_nothing rfl _, Element.content_children_of_nothing rfl _,
    f.localName_readTypes, f.localName_readComponents?, f.readMutable_fields, ?_⟩
  intro e he
  have hname : e.expandedName ∈ f.updatedTree.expandedNames := List.mem_map_of_mem he
  rw [Element.is_eq_caseless, Element.is_eq_caseless]
  exact caseless_fixed hname

end Folder
end PimDav
