import PimDav.Proofs.Client.Drafts
import PimDav.Proofs.Xml.Places

/-!
# The documents about folders, as they are read

The root of a document about a folder binds one prefix for each namespace that it needs, and
the prefix of the collection types stands for the namespace of the one type that is written.
Here the trees are given that a reader of these documents finds.
-/

namespace PimDav

open Xml (Binding Element Tag)

namespace Folder

/-- The namespaces that the root declares, by what the document holds. -/
def declaredSpaces
    (type? : Option String)
    (color alarms : Bool) : List (String × String) :=
  ("xmlns:d", Space.dav) :: ((type?.map (Prod.mk "xmlns:c")).toList ++
    ((if color then [("xmlns:a", Space.appleIcal)] else []) ++
      (if alarms then [("xmlns:k", Space.kolab)] else [])))

/-- The namespace of the collection type. -/
def typeSpace? (f : Folder) : Option String :=
  f.collectionType?.map Prod.snd

theorem creation_eq
    (f : Folder) :
    f.creation =
      settingDocument "d:mkcol" (declaredSpaces f.typeSpace? f.color.isSome f.alarms.isSome)
        (f.fixedProperties ++ f.mutableProperties) := by
  rw [creation, typeSpace?]
  cases f.collectionType? <;> rfl

theorem update_eq
    (f : Folder) :
    f.update =
      settingDocument "d:propertyupdate" (declaredSpaces none f.color.isSome f.alarms.isSome)
        f.mutableProperties :=
  rfl

/-- The collection types that are written. -/
theorem collectionType?_cases
    (f : Folder) :
    f.collectionType? = none ∨
      f.collectionType? = some ("c:addressbook", Space.cardDav) ∨
      f.collectionType? = some ("c:calendar", Space.calDav) := by
  rw [collectionType?]
  cases f.hasResourceType "addressbook" with
  | true => exact Or.inr (Or.inl rfl)
  | false =>
    cases f.hasResourceType "calendar" with
    | true => exact Or.inr (Or.inr rfl)
    | false => exact Or.inl rfl

/-- A calendar has the prefix bound, but to the namespace of an address book if it is one
too. -/
theorem typeSpace?_of_calendar
    {f : Folder}
    (hcalendar : f.hasResourceType "calendar" = true) :
    f.typeSpace? =
      some (if f.hasResourceType "addressbook" then Space.cardDav else Space.calDav) := by
  rw [typeSpace?, collectionType?, hcalendar]
  cases f.hasResourceType "addressbook" <;> rfl

/-! What the root binds. -/

/-- Bindings that say what the prefixes in the properties of a folder stand for. -/
structure Binds
    (f : Folder)
    (inForce : List Binding) : Prop where
  dav : Binding.spaceOf inForce "d" = some Space.dav
  color : f.color.isSome = true → Binding.spaceOf inForce "a" = some Space.appleIcal
  alarms : f.alarms.isSome = true → Binding.spaceOf inForce "k" = some Space.kolab

theorem binds_declaredSpaces
    (f : Folder)
    {type? : Option String}
    (htype : type? = none ∨ type? = f.typeSpace?)
    (root : String) :
    let spaces := declaredSpaces type? f.color.isSome f.alarms.isSome
    let inForce := ({ name := root, attributes := spaces } : Tag).declared Binding.builtin
    f.Binds inForce ∧ Binding.spaceOf inForce "c" = type? := by
  -- of the folder count only the type and whether two fields are set, so twelve lists decide
  have hall : ∀ space? ∈ [none, some Space.cardDav, some Space.calDav], ∀ color alarms : Bool,
      let inForce := ({ name := "", attributes := declaredSpaces space? color alarms } :
        Tag).declared Binding.builtin
      Binding.spaceOf inForce "d" = some Space.dav ∧ Binding.spaceOf inForce "c" = space? ∧
        (color = true → Binding.spaceOf inForce "a" = some Space.appleIcal) ∧
        (alarms = true → Binding.spaceOf inForce "k" = some Space.kolab) := by
    decide +kernel
  have hknown : type? ∈ [none, some Space.cardDav, some Space.calDav] := by
    rcases htype with rfl | rfl
    · exact List.mem_cons_self
    · rw [typeSpace?]
      rcases f.collectionType?_cases with hsome | hsome | hsome <;> rw [hsome] <;> simp
  obtain ⟨hdav, hspace, hcolor, halarms⟩ := hall type? hknown f.color.isSome f.alarms.isSome
  exact ⟨⟨hdav, hcolor, halarms⟩, hspace⟩

/-! The properties as they are read: the same steps, with every name in its namespace. -/

def readTypes (f : Folder) : Element :=
  let types := (Element.newIn Space.dav "d:resourcetype").child (.newIn Space.dav "d:collection")
  match f.collectionType? with
  | some (type, space) => types.child (.newIn space type)
  | none => types

def readComponents? (f : Folder) : Option Element :=
  if f.hasResourceType "calendar" && !f.components.isEmpty then
    f.typeSpace?.map fun space =>
      (Element.newIn space "c:supported-calendar-component-set").children
        (f.components.map fun name => (Element.newIn space "c:comp").attr "name" name)
  else none

def readMutable (f : Folder) : List Element :=
  (f.displayName.map (Element.newIn Space.dav "d:displayname").text).toList ++
    ((f.color.map fun c =>
        (Element.newIn Space.appleIcal "a:calendar-color").text (writtenColor c)).toList ++
      (f.alarms.map fun a =>
        (Element.newIn Space.kolab "k:alarms").text (if a then "true" else "false")).toList)

section Placed

variable {f : Folder} {inForce : List Binding}

theorem placedIn_collectionType
    {type : String × String}
    (hspace : Binding.spaceOf inForce "c" = f.typeSpace?)
    (htype : f.collectionType? = some type) :
    (Element.new type.1).placedIn inForce = .newIn type.2 type.1 := by
  rw [typeSpace?, htype] at hspace
  rcases f.collectionType?_cases with hnone | hsome | hsome
  · rw [hnone] at htype
    cases htype
  · obtain rfl := Option.some.inj (hsome.symm.trans htype)
    exact Element.placedIn_new inForce hspace (by decide) "addressbook" rfl
  · obtain rfl := Option.some.inj (hsome.symm.trans htype)
    exact Element.placedIn_new inForce hspace (by decide) "calendar" rfl

theorem placedIn_typesProperty
    (hbinds : f.Binds inForce)
    (hspace : Binding.spaceOf inForce "c" = f.typeSpace?) :
    f.typesProperty.placedIn inForce = f.readTypes := by
  have htypes : (Element.new "d:resourcetype").placedIn inForce =
      .newIn Space.dav "d:resourcetype" :=
    Element.placedIn_new inForce hbinds.dav (by decide) "resourcetype" rfl
  have hcollection : (Element.new "d:collection").placedIn inForce =
      .newIn Space.dav "d:collection" :=
    Element.placedIn_new inForce hbinds.dav (by decide) "collection" rfl
  have hbase : ((Element.new "d:resourcetype").child (.new "d:collection")).placedIn inForce =
      (Element.newIn Space.dav "d:resourcetype").child (.newIn Space.dav "d:collection") := by
    rw [Element.placedIn_child, Element.declared_of_attributes inForce rfl, htypes, hcollection]
  unfold typesProperty readTypes
  cases htype : f.collectionType? with
  | none => exact hbase
  | some type =>
    have hinside := placedIn_collectionType hspace htype
    dsimp only
    rw [Element.placedIn_child, Element.declared_of_attributes inForce rfl, hbase, hinside]

theorem placedIn_componentsProperty?
    (hspace : Binding.spaceOf inForce "c" = f.typeSpace?) :
    f.componentsProperty?.toList.map (Element.placedIn inForce) = f.readComponents?.toList := by
  rw [componentsProperty?, readComponents?]
  cases hcalendar : f.hasResourceType "calendar" with
  | false => rfl
  | true =>
    cases f.components.isEmpty with
    | true => rfl
    | false =>
      -- which namespace it is does not matter here, only that there is one
      rw [typeSpace?_of_calendar hcalendar] at hspace ⊢
      generalize (if f.hasResourceType "addressbook" then Space.cardDav else Space.calDav) =
        space at hspace ⊢
      have hset : (Element.new "c:supported-calendar-component-set").placedIn inForce =
          .newIn space "c:supported-calendar-component-set" :=
        Element.placedIn_new inForce hspace (by decide) "supported-calendar-component-set" rfl
      have hcomp : (Element.new "c:comp").placedIn inForce = .newIn space "c:comp" :=
        Element.placedIn_new inForce hspace (by decide) "comp" rfl
      have hcomponent : ∀ name, ((Element.new "c:comp").attr "name" name).placedIn inForce =
          (Element.newIn space "c:comp").attr "name" name := by
        intro name
        rw [Element.placedIn_attr inForce _ (by decide), hcomp]
      apply congrArg (fun e => [e])
      rw [Element.placedIn_children, Element.declared_of_attributes inForce rfl, hset,
        List.map_map]
      apply congrArg (Element.children _)
      exact List.map_congr_left fun name _ => hcomponent name

/-- A property that is written if it is set. -/
theorem placedIn_optional
    {α : Type}
    {p : Option α}
    {start space written : String}
    (hspace : p.isSome = true → Binding.spaceOf inForce start = some space)
    (hstart : ':' ∉ start.toList)
    (name : String)
    (hwritten : written = start ++ ":" ++ name)
    (textOf : α → String) :
    (p.map fun a => (Element.new written).text (textOf a)).toList.map
        (Element.placedIn inForce) =
      (p.map fun a => (Element.newIn space written).text (textOf a)).toList := by
  cases p with
  | none => rfl
  | some a =>
    have hnew := Element.placedIn_new inForce (hspace rfl) hstart name hwritten
    rw [Option.map_some, Option.toList_some, List.map_singleton, Element.placedIn_text, hnew]
    rfl

theorem placedIn_mutableProperties
    (hbinds : f.Binds inForce) :
    f.mutableProperties.map (Element.placedIn inForce) = f.readMutable := by
  have hname := placedIn_optional (p := f.displayName) (fun _ => hbinds.dav) (by decide)
    "displayname" rfl id
  have hcolor := placedIn_optional hbinds.color (by decide) "calendar-color" rfl writtenColor
  have halarms := placedIn_optional hbinds.alarms (by decide) "alarms" rfl
    fun a => if a then "true" else "false"
  rw [mutableProperties_eq, readMutable, List.map_append, List.map_append]
  exact congr (congrArg (· ++ ·) hname) (congr (congrArg (· ++ ·) hcolor) halarms)

end Placed

/-! The whole documents. -/

/-- The tree of a document that sets properties. -/
def readSetting
    (root : String)
    (spaces : List (String × String))
    (properties : List Element) : Element :=
  let outer : Element :=
    { tag := { name := root, attributes := spaces, space := some Space.dav } }
  outer.child ((Element.newIn Space.dav "d:set").child
    ((Element.newIn Space.dav "d:prop").children properties))

theorem settingDocument_eq
    (root : String)
    (spaces : List (String × String))
    (properties : List Element) :
    let outer : Element := { tag := { name := root, attributes := spaces } }
    settingDocument root spaces properties =
      outer.child ((Element.new "d:set").child ((Element.new "d:prop").children properties)) := by
  intro outer
  have houter : spaces.foldl (fun e s => e.attr s.1 s.2) (Element.new root) = outer :=
    congr (congrArg Element.mk (Element.tag_foldl_attr spaces (Element.new root)))
      (Element.content_foldl_attr spaces (Element.new root))
  rw [settingDocument, houter]

/-- The bindings of the root are in force everywhere below it. -/
theorem placed_settingDocument
    (root name : String)
    (hroot : root = "d" ++ ":" ++ name)
    {spaces : List (String × String)}
    {inForce : List Binding}
    (hinForce : ({ name := root, attributes := spaces } : Tag).declared Binding.builtin = inForce)
    (hdav : Binding.spaceOf inForce "d" = some Space.dav)
    (properties : List Element) :
    (settingDocument root spaces properties).placed =
      readSetting root spaces (properties.map (Element.placedIn inForce)) := by
  have hset : (Element.new "d:set").placedIn inForce = .newIn Space.dav "d:set" :=
    Element.placedIn_new inForce hdav (by decide) "set" rfl
  have hprop : (Element.new "d:prop").placedIn inForce = .newIn Space.dav "d:prop" :=
    Element.placedIn_new inForce hdav (by decide) "prop" rfl
  have hspace : (Binding.resolve inForce (Utf8.encode root)).map Utf8.decodeLossy =
      some Space.dav := by
    rw [hroot, Binding.resolve_prefixed (by decide), hdav]
  have houter : ({ tag := { name := root, attributes := spaces } } : Element).placed =
      { tag := { name := root, attributes := spaces, space := some Space.dav } } := by
    rw [Element.placed, Tag.placed, hinForce, hspace]
    rfl
  -- only the root binds prefixes, so `inForce` is handed on unchanged from there
  have hplaced : ∀ e : Element, e.placed = e.placedIn Binding.builtin := fun _ => rfl
  rw [settingDocument_eq, readSetting, hplaced, Element.placedIn_child, ← hplaced, houter, hinForce,
    Element.placedIn_child, Element.declared_of_attributes inForce rfl, hset,
    Element.placedIn_children, Element.declared_of_attributes inForce rfl, hprop]

/-- The tree of the document that creates the folder. -/
def createdTree (f : Folder) : Element :=
  readSetting "d:mkcol" (declaredSpaces f.typeSpace? f.color.isSome f.alarms.isSome)
    (f.readTypes :: (f.readComponents?.toList ++ f.readMutable))

/-- The tree of the document that changes the folder. -/
def updatedTree (f : Folder) : Element :=
  readSetting "d:propertyupdate" (declaredSpaces none f.color.isSome f.alarms.isSome)
    f.readMutable

theorem parse_creation
    (f : Folder) :
    Xml.parse (Utf8.encode f.creation.document) = .ok f.createdTree := by
  obtain ⟨hbinds, hspace⟩ := f.binds_declaredSpaces (Or.inr rfl) "d:mkcol"
  rw [Xml.parse_document f.alike_creation.built.isJoined f.alike_creation.isWellFormed,
    creation_eq, placed_settingDocument "d:mkcol" "mkcol" rfl rfl hbinds.dav, fixedProperties_eq,
    List.cons_append, List.map_cons, List.map_append, placedIn_typesProperty hbinds hspace,
    placedIn_componentsProperty? hspace, placedIn_mutableProperties hbinds]
  rfl

theorem parse_update
    (f : Folder) :
    Xml.parse (Utf8.encode f.update.document) = .ok f.updatedTree := by
  obtain ⟨hbinds, -⟩ := f.binds_declaredSpaces (Or.inl rfl) "d:propertyupdate"
  rw [Xml.parse_document f.alike_update.built.isJoined f.alike_update.isWellFormed,
    update_eq, placed_settingDocument "d:propertyupdate" "propertyupdate" rfl rfl hbinds.dav,
    placedIn_mutableProperties hbinds]
  rfl

end Folder
end PimDav
