import PimDav.Kind
import PimDav.Response
import PimDav.Text.Digits

/-!
# Folders

A folder is a collection on the server, a calendar or an address book, with the
metadata that clients show.  It is read from a response and written into the
documents that create it or change it.
-/

namespace PimDav

open Xml (Element)

structure Folder where
  href : String := ""
  displayName : Option String := none
  /-- The token that changes whenever the collection does. -/
  changeTag : Option String := none
  /-- The names of the components that a calendar takes. -/
  components : List String := []
  resourceTypes : List String := []
  /-- Six to eight hexadecimal digits, without the `#` in front of them. -/
  color : Option String := none
  alarms : Option Bool := none
  deriving DecidableEq, Repr

namespace Folder

/-- A calendar for items of the given kinds; contacts have no place in it. -/
def calendar
    (href name : String)
    (kinds : List Kind) : Folder where
  href := href
  displayName := some name
  components := (kinds.filter Kind.isCalendar).map Kind.component
  resourceTypes := ["collection", "calendar"]

def addressBook (href name : String) : Folder where
  href := href
  displayName := some name
  resourceTypes := ["collection", "addressbook"]

def hasResourceType
    (f : Folder)
    (type : String) : Bool :=
  f.resourceTypes.any fun t => Text.caseless t type

/-- Whether items of a kind belong in the folder. Address books do not list
components, so contacts go by the resource type. -/
def supports
    (f : Folder)
    (k : Kind) : Bool :=
  if k.isCalendar then f.components.any fun c => Text.caseless c k.component
  else f.hasResourceType k.vocabulary.resourceType

/-- The digits of a color. -/
def readColor? (s : String) : Option String :=
  (Text.after? "#" s).bind fun digits =>
    let cs := digits.toList
    if 6 ≤ cs.length && cs.length ≤ 8 && cs.all Text.isHexDigit then some digits else none

def readFlag? (s : String) : Option Bool :=
  match Text.lower s with
  | "true" => some true
  | "1" => some true
  | "yes" => some true
  | "false" => some false
  | "0" => some false
  | "no" => some false
  | _ => none

/-- The folder that a response describes, under the href that the server sent. -/
def ofResponse (response : Element) : Folder where
  href := (Response.href? response).getD ""
  displayName := Response.propertyText? response "displayname"
  changeTag := Response.propertyText? response "getctag"
  components :=
    match Response.property? response "supported-calendar-component-set" with
    | some set => (set.descendants "comp").filterMap (·.attribute? "name")
    | none => []
  resourceTypes :=
    match Response.property? response "resourcetype" with
    | some types => types.elements.map Element.localName
    | none => []
  color := (Response.propertyText? response "calendar-color").bind readColor?
  alarms := (Response.propertyText? response "alarms").bind readFlag?

/-- A color as it is written, with one `#` in front unless it is empty or has one. -/
def writtenColor (color : String) : String :=
  if color.isEmpty || Text.beginsWith "#" color then color else "#" ++ color

/-- The collection that a folder is: an address book, a calendar or neither, and
the namespace to which that type belongs. -/
def collectionType? (f : Folder) : Option (String × String) :=
  if f.hasResourceType "addressbook" then some ("c:addressbook", Space.cardDav)
  else if f.hasResourceType "calendar" then some ("c:calendar", Space.calDav)
  else none

/-- The properties that are fixed when a folder is created. -/
def fixedProperties (f : Folder) : List Element :=
  let types := Element.new "d:resourcetype" |>.child (.new "d:collection")
  let types :=
    match f.collectionType? with
    | some (type, _) => types.child (.new type)
    | none => types
  let components := Element.new "c:supported-calendar-component-set" |>.children
    (f.components.map fun name => (Element.new "c:comp").attr "name" name)
  if f.hasResourceType "calendar" && !f.components.isEmpty then [types, components] else [types]

/-- The properties that may be changed later. -/
def mutableProperties (f : Folder) : List Element :=
  let name := f.displayName.map (Element.new "d:displayname").text
  let color := f.color.map fun c => (Element.new "a:calendar-color").text (writtenColor c)
  let alarms := f.alarms.map fun a =>
    (Element.new "k:alarms").text (if a then "true" else "false")
  [name, color, alarms].filterMap id

/-- The prefixes that the mutable properties need. -/
def mutableSpaces (f : Folder) : List (String × String) :=
  (if f.color.isSome then [("xmlns:a", Space.appleIcal)] else []) ++
    (if f.alarms.isSome then [("xmlns:k", Space.kolab)] else [])

/-- A document that sets properties. -/
def settingDocument
    (root : String)
    (spaces : List (String × String))
    (properties : List Element) : Element :=
  let declared := spaces.foldl (fun e s => e.attr s.1 s.2) (Element.new root)
  declared.child ((Element.new "d:set").child ((Element.new "d:prop").children properties))

/-- The document that creates the folder: its type and all its metadata. -/
def creation (f : Folder) : Element :=
  let typeSpace :=
    match f.collectionType? with
    | some (_, space) => [("xmlns:c", space)]
    | none => []
  settingDocument "d:mkcol" ([("xmlns:d", Space.dav)] ++ typeSpace ++ f.mutableSpaces)
    (f.fixedProperties ++ f.mutableProperties)

/-- The document that changes the folder: only what may be changed. -/
def update (f : Folder) : Element :=
  settingDocument "d:propertyupdate" ([("xmlns:d", Space.dav)] ++ f.mutableSpaces)
    f.mutableProperties

/-- The document that asks for the metadata of folders for items of a kind, or of
any folder. Address books are not asked for the properties of calendars. -/
def listing (k : Option Kind) : Element :=
  let root := Element.new "d:propfind"
    |>.attr "xmlns:d" Space.dav
    |>.attr "xmlns:cs" Space.calendarServer
  let common := [.new "d:resourcetype", .new "d:displayname", .new "cs:getctag"]
  let ofCalendars :=
    [.new "c:supported-calendar-component-set", .new "a:calendar-color", .new "k:alarms"]
  if (k.map Kind.isCalendar).getD true then
    let root := root
      |>.attr "xmlns:c" Space.calDav
      |>.attr "xmlns:a" Space.appleIcal
      |>.attr "xmlns:k" Space.kolab
    root.child ((Element.new "d:prop").children (common ++ ofCalendars))
  else root.child ((Element.new "d:prop").children common)

end Folder
end PimDav
