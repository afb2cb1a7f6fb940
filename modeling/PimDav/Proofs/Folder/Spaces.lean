import PimDav.Proofs.Folder.Trees

/-!
# The namespaces of what is written about folders

In the documents about folders every name has a namespace that it belongs to.  A folder has one
collection type, and the names of components are written in the namespace of that type; so
they are in another one than their own when a calendar is an address book as well.
-/

namespace PimDav

open Xml (Element)

namespace Folder

/-- The names in documents about folders, each in the namespace that it belongs to. -/
def homes : List (String × Option String) :=
  [("mkcol", some Space.dav), ("propertyupdate", some Space.dav), ("set", some Space.dav),
    ("prop", some Space.dav), ("resourcetype", some Space.dav), ("collection", some Space.dav),
    ("displayname", some Space.dav), ("calendar", some Space.calDav),
    ("supported-calendar-component-set", some Space.calDav), ("comp", some Space.calDav),
    ("addressbook", some Space.cardDav), ("calendar-color", some Space.appleIcal),
    ("alarms", some Space.kolab)]

/-- Whether a folder is created as an address book although it lists the components of a
calendar. -/
def MixesTypes (f : Folder) : Prop :=
  f.hasResourceType "addressbook" = true ∧ f.hasResourceType "calendar" = true ∧
    f.components ≠ []

/-! The names of the properties, in document order. -/

def typeNames (f : Folder) : List (String × Option String) :=
  [("resourcetype", some Space.dav), ("collection", some Space.dav)] ++
    f.collectionType?.toList.map fun type => (Xml.localPart type.1, some type.2)

def componentNames (f : Folder) : List (String × Option String) :=
  if f.hasResourceType "calendar" && !f.components.isEmpty then
    ("supported-calendar-component-set", f.typeSpace?) ::
      f.components.map fun _ => ("comp", f.typeSpace?)
  else []

def mutableNames (f : Folder) : List (String × Option String) :=
  (f.displayName.map fun _ => ("displayname", some Space.dav)).toList ++
    ((f.color.map fun _ => ("calendar-color", some Space.appleIcal)).toList ++
      (f.alarms.map fun _ => ("alarms", some Space.kolab)).toList)

theorem expandedNames_readTypes
    (f : Folder) :
    f.readTypes.expandedNames = f.typeNames := by
  have htypes : ((Element.newIn Space.dav "d:resourcetype").child
      (.newIn Space.dav "d:collection")).expandedNames =
        [("resourcetype", some Space.dav), ("collection", some Space.dav)] := by
    rw [Element.expandedNames_child]
    decide
  unfold readTypes typeNames
  cases f.collectionType? with
  | none => exact htypes
  | some type =>
    dsimp only
    rw [Element.expandedNames_child, htypes]
    rfl

theorem expandedNames_readComponents?
    (f : Folder) :
    f.readComponents?.toList.flatMap Element.expandedNames = f.componentNames := by
  have hnames : Xml.localPart "c:supported-calendar-component-set" =
      "supported-calendar-component-set" ∧ Xml.localPart "c:comp" = "comp" := by
    decide
  obtain ⟨hset, hcomp⟩ := hnames
  have hcomponent : ∀ space name, ((Element.newIn space "c:comp").attr "name" name).expandedNames =
      [("comp", some space)] := by
    intro space name
    rw [← hcomp]
    rfl
  unfold readComponents? componentNames
  cases hcalendar : f.hasResourceType "calendar" with
  | false => rfl
  | true =>
    cases f.components.isEmpty with
    | true => rfl
    | false =>
      rw [typeSpace?_of_calendar hcalendar]
      simp [hset, hcomponent, List.flatMap_map, ← List.map_eq_flatMap]

theorem localPart_mutable :
    Xml.localPart "d:displayname" = "displayname" ∧
      Xml.localPart "a:calendar-color" = "calendar-color" ∧
      Xml.localPart "k:alarms" = "alarms" := by
  decide

theorem expandedNames_readMutable
    (f : Folder) :
    f.readMutable.flatMap Element.expandedNames = f.mutableNames := by
  obtain ⟨hname, hcolor, halarms⟩ := localPart_mutable
  rw [readMutable, mutableNames]
  cases f.displayName <;> cases f.color <;> cases f.alarms <;> simp [hname, hcolor, halarms]

theorem expandedNames_readSetting
    (root : String)
    (spaces : List (String × String))
    (properties : List Element) :
    (readSetting root spaces properties).expandedNames =
      [(Xml.localPart root, some Space.dav), ("set", some Space.dav), ("prop", some Space.dav)] ++
        properties.flatMap Element.expandedNames := by
  have hnames : Xml.localPart "d:set" = "set" ∧ Xml.localPart "d:prop" = "prop" := by decide
  rw [readSetting, Element.expandedNames_child, Element.expandedNames_child,
    Element.expandedNames_children, Element.expandedNames_newIn, Element.expandedNames_newIn,
    hnames.1, hnames.2]
  rfl

theorem expandedNames_createdTree
    (f : Folder) :
    f.createdTree.expandedNames =
      [("mkcol", some Space.dav), ("set", some Space.dav), ("prop", some Space.dav)] ++
        (f.typeNames ++ (f.componentNames ++ f.mutableNames)) := by
  rw [createdTree, expandedNames_readSetting, List.flatMap_cons, List.flatMap_append,
    expandedNames_readTypes, expandedNames_readComponents?, expandedNames_readMutable,
    (by decide : Xml.localPart "d:mkcol" = "mkcol")]

theorem expandedNames_updatedTree
    (f : Folder) :
    f.updatedTree.expandedNames =
      [("propertyupdate", some Space.dav), ("set", some Space.dav), ("prop", some Space.dav)] ++
        f.mutableNames := by
  rw [updatedTree, expandedNames_readSetting, expandedNames_readMutable,
    (by decide : Xml.localPart "d:propertyupdate" = "propertyupdate")]

/-! Where the names belong. -/

theorem typeNames_subset
    (f : Folder) :
    ∀ name ∈ f.typeNames, name ∈ homes := by
  rw [typeNames]
  rcases f.collectionType?_cases with htype | htype | htype <;> rw [htype] <;> decide

theorem mutableNames_subset
    (f : Folder) :
    ∀ name ∈ f.mutableNames, name ∈ homes := by
  rw [mutableNames]
  cases f.displayName <;> cases f.color <;> cases f.alarms <;>
    simp only [Option.map_none, Option.map_some] <;> decide

theorem componentNames_of_mixesTypes
    {f : Folder}
    (hmixes : f.MixesTypes) :
    f.componentNames =
      ("supported-calendar-component-set", some Space.cardDav) ::
        f.components.map fun _ => ("comp", some Space.cardDav) := by
  obtain ⟨haddressbook, hcalendar, hsome⟩ := hmixes
  rw [componentNames, typeSpace?_of_calendar hcalendar, haddressbook, hcalendar,
    List.isEmpty_eq_false_iff.2 hsome]
  rfl

theorem componentNames_subset
    {f : Folder}
    (hfine : ¬f.MixesTypes) :
    ∀ name ∈ f.componentNames, name ∈ homes := by
  intro name hname
  rw [componentNames, List.mem_ite_nil_right, Bool.and_eq_true, Bool.not_eq_true',
    List.isEmpty_eq_false_iff] at hname
  obtain ⟨⟨hcalendar, hsome⟩, hname⟩ := hname
  have haddressbook : f.hasResourceType "addressbook" = false :=
    Bool.eq_false_iff.2 fun h => hfine ⟨h, hcalendar, hsome⟩
  rw [typeSpace?_of_calendar hcalendar, haddressbook, List.mem_cons, List.mem_map] at hname
  rcases hname with rfl | ⟨-, -, rfl⟩ <;> decide

/-- Whatever the folder is, only the names of components can be elsewhere. -/
theorem forall_mem_createdTree_iff
    {f : Folder}
    {P : String × Option String → Prop}
    (hhomes : ∀ name ∈ homes, P name) :
    (∀ name ∈ f.createdTree.expandedNames, P name) ↔ ∀ name ∈ f.componentNames, P name := by
  have hroot : ∀ name ∈ [("mkcol", some Space.dav), ("set", some Space.dav),
      ("prop", some Space.dav)], P name := by
    simp only [List.forall_mem_cons]
    exact ⟨hhomes _ (by decide), hhomes _ (by decide), hhomes _ (by decide),
      List.forall_mem_nil _⟩
  have htypes : ∀ name ∈ f.typeNames, P name :=
    fun name hname => hhomes name (f.typeNames_subset name hname)
  have hmutable : ∀ name ∈ f.mutableNames, P name :=
    fun name hname => hhomes name (f.mutableNames_subset name hname)
  simp only [expandedNames_createdTree, List.forall_mem_append]
  exact ⟨fun h => h.2.2.1, fun h => ⟨hroot, htypes, h, hmutable⟩⟩

/-- Every name in the documents about a folder is in the namespace that it belongs to, unless
the folder is created as an address book and lists components: then these are in the namespace
of address books. -/
theorem names_at_home_iff
    (f : Folder) :
    ∃ created updated,
      Xml.parse (Utf8.encode f.creation.document) = .ok created ∧
      Xml.parse (Utf8.encode f.update.document) = .ok updated ∧
      (∀ name ∈ updated.expandedNames, name ∈ homes) ∧
      (∀ name ∈ created.expandedNames,
        name ∈ homes ∨ name = ("supported-calendar-component-set", some Space.cardDav) ∨
          name = ("comp", some Space.cardDav)) ∧
      ((∀ name ∈ created.expandedNames, name ∈ homes) ↔ ¬f.MixesTypes) := by
  have hupdated : ∀ name ∈ f.updatedTree.expandedNames, name ∈ homes := by
    rw [expandedNames_updatedTree, List.forall_mem_append]
    exact ⟨by decide, f.mutableNames_subset⟩
  refine ⟨f.createdTree, f.updatedTree, f.parse_creation, f.parse_update, hupdated, ?_, ?_⟩
  · rw [forall_mem_createdTree_iff fun _ => Or.inl]
    by_cases hmixes : f.MixesTypes
    · rw [componentNames_of_mixesTypes hmixes, List.forall_mem_cons]
      refine ⟨Or.inr (Or.inl rfl), ?_⟩
      intro name hname
      obtain ⟨-, -, rfl⟩ := List.mem_map.1 hname
      exact Or.inr (Or.inr rfl)
    · exact fun name hname => Or.inl (componentNames_subset hmixes name hname)
  · rw [forall_mem_createdTree_iff fun _ => id]
    constructor
    · intro hhome hmixes
      rw [componentNames_of_mixesTypes hmixes] at hhome
      exact absurd (hhome _ List.mem_cons_self) (by decide)
    · exact componentNames_subset

/-- A folder of both types. -/
theorem component_set_in_space_of_address_books :
    let f : Folder := { components := ["VEVENT"], resourceTypes := ["AddressBook", "calendar"] }
    ∃ created,
      Xml.parse (Utf8.encode f.creation.document) = .ok created ∧
      ("supported-calendar-component-set", some Space.cardDav) ∈ created.expandedNames ∧
      ("supported-calendar-component-set", some Space.cardDav) ∉ homes := by
  intro f
  have hmixes : f.MixesTypes := ⟨by decide, by decide, List.cons_ne_nil _ _⟩
  refine ⟨f.createdTree, f.parse_creation, ?_, by decide⟩
  rw [expandedNames_createdTree, componentNames_of_mixesTypes hmixes]
  simp

end Folder
end PimDav
