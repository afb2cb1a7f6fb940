import PimDav.Proofs.Response.Folders
import PimDav.Proofs.Xml.Skeleton
import PimDav.Report
import PimDav.Sharing

/-!
# Documents that are written for a caller

A caller puts strings into the documents that create and change folders, search and fetch
items, answer invitations and share folders.  Whatever the strings are, they are found again
as texts and as values of attributes, and the rest of the document does not depend on them.
-/

namespace PimDav

open Xml (Alike AlikeAll Binding Element isDeclarationKey isName presentText)

theorem isWellFormed_href : (Element.new "d:href").isWellFormed = true := by
  decide

theorem isWellFormed_comment : (Element.new "d:comment").isWellFormed = true := by
  decide

/-- What a string is replaced with when only its emptiness counts. -/
def standIn (s : String) : String :=
  if s.isEmpty then "" else "x"

theorem isEmpty_standIn
    (s : String) :
    (standIn s).isEmpty = s.isEmpty := by
  rw [standIn]
  cases hs : s.isEmpty <;> rfl

/-- A text that is written if it is given. -/
theorem alikeAll_text
    {name : String}
    (hname : (Element.new name).isWellFormed = true)
    (s : Option String) :
    AlikeAll (s.map (Element.new name).text).toList
      ((s.map standIn).map (Element.new name).text).toList (s.toList.flatMap presentText) :=
  .toList (fun s => .text hname (isEmpty_standIn s)) s

/-- The namespaces that are declared at the roots of documents. -/
def rootSpaces : List (String × String) :=
  [("xmlns:d", Space.dav), ("xmlns:c", Space.calDav), ("xmlns:c", Space.cardDav),
    ("xmlns:a", Space.appleIcal), ("xmlns:k", Space.kolab)]

theorem dav_mem_rootSpaces :
    ("xmlns:d", Space.dav) ∈ rootSpaces :=
  List.mem_cons_self

/-- A root that declares some of these namespaces. -/
theorem alike_root
    {name : String}
    {spaces : List (String × String)}
    (hname : (Element.new name).isWellFormed = true)
    (hspaces : ∀ s ∈ spaces, s ∈ rootSpaces) :
    let e := spaces.foldl (fun e s => e.attr s.1 s.2) (Element.new name)
    Alike e e [] := by
  have hsound : ∀ s ∈ rootSpaces, isDeclarationKey s.1 = true ∧
      (isName s.1 && (Binding.ofAttribute (.written s)).isSome) = true := by
    decide
  exact .declaring hname fun s hs => hsound s (hspaces s hs)

namespace Folder

/-- The folder as far as its documents depend on it, apart from their strings. -/
def shape (f : Folder) : Folder where
  displayName := f.displayName.map standIn
  components := f.components.map fun _ => ""
  resourceTypes := f.resourceTypes
  color := f.color.map standIn
  alarms := f.alarms.map fun _ => true

/-- The strings of the properties that may be changed. -/
def mutableStrings (f : Folder) : List String :=
  f.displayName.toList.flatMap presentText ++
    ((f.color.toList.flatMap fun c => presentText (writtenColor c)) ++
      (f.alarms.toList.flatMap fun a => presentText (if a then "true" else "false")))

/-- The strings of the properties that are fixed. -/
def fixedStrings (f : Folder) : List String :=
  if f.hasResourceType "calendar" then f.components else []

theorem isEmpty_writtenColor
    (color : String) :
    (writtenColor color).isEmpty = color.isEmpty := by
  rw [writtenColor]
  cases hempty : color.isEmpty with
  | true => simp [hempty]
  | false =>
    have hsharp : ("#" ++ color).isEmpty = false := by
      rw [← Bool.not_eq_true, String.isEmpty_iff]
      intro h
      have hchars := congrArg String.toList h
      rw [String.toList_append] at hchars
      cases hchars
    cases Text.beginsWith "#" color <;> simp [hempty, hsharp]

theorem alikeAll_mutableProperties
    (f : Folder) :
    AlikeAll f.mutableProperties f.shape.mutableProperties f.mutableStrings := by
  rw [mutableProperties_eq, mutableProperties_eq]
  apply AlikeAll.append (alikeAll_text (by decide) f.displayName)
  apply AlikeAll.append
  · apply AlikeAll.toList
    intro c
    apply Alike.text (by decide)
    rw [isEmpty_writtenColor, isEmpty_writtenColor, isEmpty_standIn]
  · apply AlikeAll.toList
    intro a
    apply Alike.text (by decide)
    cases a <;> rfl

theorem alike_typesProperty
    (f : Folder) :
    Alike f.typesProperty f.shape.typesProperty [] := by
  have htypes : f.shape.typesProperty = f.typesProperty := rfl
  have hnone : Alike ((Element.new "d:resourcetype").child (.new "d:collection"))
      ((Element.new "d:resourcetype").child (.new "d:collection")) [] :=
    .child (.new (by decide)) (.new (by decide))
  rw [htypes, typesProperty, collectionType?]
  cases f.hasResourceType "addressbook" with
  | true => exact hnone.child (.new (by decide))
  | false =>
    cases f.hasResourceType "calendar" with
    | true => exact hnone.child (.new (by decide))
    | false => exact hnone

theorem alikeAll_componentsProperty?
    (f : Folder) :
    AlikeAll f.componentsProperty?.toList f.shape.componentsProperty?.toList f.fixedStrings := by
  have hcomponents : AlikeAll
      (f.components.map fun name => (Element.new "c:comp").attr "name" name)
      (f.shape.components.map fun name => (Element.new "c:comp").attr "name" name)
      (f.components.flatMap fun name => [name]) :=
    .map fun name _ => .field (by decide) (by decide) name ""
  have hset : (Element.new "c:supported-calendar-component-set").isWellFormed = true := by
    decide
  have hempty : f.shape.components.isEmpty = f.components.isEmpty := List.isEmpty_map
  have hcalendar : f.shape.hasResourceType "calendar" = f.hasResourceType "calendar" := rfl
  rw [componentsProperty?, componentsProperty?, fixedStrings, hempty, hcalendar]
  rw [List.flatMap_singleton'] at hcomponents
  cases f.hasResourceType "calendar" with
  | false => exact .nil
  | true =>
    cases hnone : f.components.isEmpty with
    | true =>
      rw [if_pos rfl, List.isEmpty_iff.1 hnone]
      exact .nil
    | false => exact .singleton ((Alike.new hset).children hcomponents)

theorem alikeAll_fixedProperties
    (f : Folder) :
    AlikeAll f.fixedProperties f.shape.fixedProperties f.fixedStrings := by
  rw [fixedProperties_eq, fixedProperties_eq]
  exact .cons f.alike_typesProperty f.alikeAll_componentsProperty?

theorem alike_settingDocument
    {root : String}
    {spaces : List (String × String)}
    {properties others : List Element}
    {strings : List String}
    (hroot : (Element.new root).isWellFormed = true)
    (hspaces : ∀ s ∈ spaces, s ∈ rootSpaces)
    (hproperties : AlikeAll properties others strings) :
    Alike (settingDocument root spaces properties) (settingDocument root spaces others)
      strings := by
  have hprop : Alike (Element.new "d:prop") (Element.new "d:prop") [] := .new (by decide)
  have hset : Alike (Element.new "d:set") (Element.new "d:set") [] := .new (by decide)
  exact (alike_root hroot hspaces).child (hset.child (hprop.children hproperties))

theorem mutableSpaces_shape
    (f : Folder) :
    f.shape.mutableSpaces = f.mutableSpaces := by
  rw [mutableSpaces, mutableSpaces, shape, Option.isSome_map, Option.isSome_map]

/-! Whatever a folder declares is among the known namespaces. -/

theorem mutableSpaces_subset
    (f : Folder) :
    ∀ s ∈ f.mutableSpaces, s ∈ rootSpaces := by
  intro s hs
  rw [mutableSpaces, List.mem_append, List.mem_ite_nil_right, List.mem_ite_nil_right,
    List.mem_singleton, List.mem_singleton] at hs
  rcases hs with ⟨-, rfl⟩ | ⟨-, rfl⟩ <;> simp [rootSpaces]

theorem typeSpace_mem_rootSpaces
    {f : Folder}
    {type : String × String}
    (htype : f.collectionType? = some type) :
    ("xmlns:c", type.2) ∈ rootSpaces := by
  unfold collectionType? at htype
  split at htype
  · cases htype
    simp [rootSpaces]
  · split at htype
    · cases htype
      simp [rootSpaces]
    · cases htype

theorem alike_creation
    (f : Folder) :
    Alike f.creation f.shape.creation (f.fixedStrings ++ f.mutableStrings) := by
  have hproperties := f.alikeAll_fixedProperties.append f.alikeAll_mutableProperties
  have htypes : f.shape.collectionType? = f.collectionType? := rfl
  rw [creation, creation, mutableSpaces_shape, htypes]
  apply alike_settingDocument (by decide) _ hproperties
  refine List.forall_mem_append.2 ⟨?_, f.mutableSpaces_subset⟩
  refine List.forall_mem_cons.2 ⟨dav_mem_rootSpaces, ?_⟩
  cases htype : f.collectionType? with
  | none => exact List.forall_mem_nil _
  | some type => exact List.forall_mem_singleton.2 (typeSpace_mem_rootSpaces htype)

theorem alike_update
    (f : Folder) :
    Alike f.update f.shape.update f.mutableStrings := by
  rw [update, update, mutableSpaces_shape]
  exact alike_settingDocument (by decide)
    (List.forall_mem_cons.2 ⟨dav_mem_rootSpaces, f.mutableSpaces_subset⟩)
    f.alikeAll_mutableProperties

end Folder

/-! Reports. -/

namespace Report

theorem alike_root
    (k : Kind)
    {name : String}
    (hname : (Element.new ("c:" ++ name)).isWellFormed = true) :
    Alike (root k name) (root k name) [] := by
  have hspaces : ∀ s ∈ [("xmlns:d", Space.dav), ("xmlns:c", k.vocabulary.space)],
      s ∈ rootSpaces := by
    cases k <;> simp [rootSpaces, Kind.vocabulary, Vocabulary.event, Vocabulary.task,
      Vocabulary.contact]
  exact PimDav.alike_root hname hspaces

theorem alike_componentFilter
    (name otherName : String) :
    Alike (componentFilter name) (componentFilter otherName) [name] :=
  .field (by decide) (by decide) name otherName

/-- The strings of a search. -/
def searchStrings
    (k : Kind)
    (component : Option String) : List String :=
  if k.isCalendar then ["VCALENDAR", component.getD k.component] else []

theorem alike_search
    (k : Kind)
    (component : Option String) :
    Alike (search k component) (search k (component.map fun _ => ""))
      (searchStrings k component) := by
  have hroot : Alike (root k k.vocabulary.query) (root k k.vocabulary.query) [] :=
    alike_root k (by cases k <;> decide)
  have hprop : Alike ((Element.new "d:prop").child (.new "d:getetag"))
      ((Element.new "d:prop").child (.new "d:getetag")) [] :=
    .child (.new (by decide)) (.new (by decide))
  have hfilter : Alike (Element.new "c:filter") (Element.new "c:filter") [] :=
    .new (by decide)
  unfold search searchStrings
  cases k.isCalendar with
  | false => exact hroot.child hprop
  | true =>
    have hcomponents := (alike_componentFilter "VCALENDAR" "VCALENDAR").child
      (alike_componentFilter (component.getD k.component)
        ((component.map fun _ => "").getD k.component))
    exact (hroot.child hprop).child (hfilter.child hcomponents)

/-- An href of which only counts whether it is blank. -/
def standInHref (href : String) : String :=
  match Text.trimmed? href with
  | some _ => "x"
  | none => ""

theorem filterMap_trimmed?_standInHref
    (hrefs : List String) :
    (hrefs.map standInHref).filterMap Text.trimmed? =
      (hrefs.filterMap Text.trimmed?).map fun _ => "x" := by
  have hblank : Text.trimmed? "" = none := by decide
  have hshown : Text.trimmed? "x" = some "x" := by decide
  rw [List.filterMap_map, List.map_filterMap]
  apply congrArg (hrefs.filterMap ·)
  funext href
  rw [Function.comp_apply, standInHref]
  cases Text.trimmed? href with
  | none => exact hblank
  | some s => exact hshown

/-- There is no document when all hrefs are blank, and otherwise one with those that are
not. -/
theorem multiget?_cases
    (k : Kind)
    (hrefs : List String) :
    (multiget? k hrefs = none ∧ multiget? k (hrefs.map standInHref) = none ∧
      ∀ h ∈ hrefs, Text.trimmed? h = none) ∨
    ∃ e other,
      multiget? k hrefs = some e ∧ multiget? k (hrefs.map standInHref) = some other ∧
        Alike e other (hrefs.filterMap Text.trimmed?) := by
  have hnonempty : ∀ s ∈ hrefs.filterMap Text.trimmed?, s.isEmpty = false := by
    intro s hs
    obtain ⟨href, -, htext⟩ := List.mem_filterMap.1 hs
    exact Text.isEmpty_of_trimmed? htext
  have hblank : hrefs.filterMap Text.trimmed? = [] → ∀ h ∈ hrefs, Text.trimmed? h = none :=
    List.filterMap_eq_nil_iff.1
  rw [multiget?, multiget?, filterMap_trimmed?_standInHref, List.isEmpty_map]
  generalize hrefs.filterMap Text.trimmed? = wanted at hnonempty hblank
  cases hnone : wanted.isEmpty with
  | true => exact Or.inl ⟨rfl, rfl, hblank (List.isEmpty_iff.1 hnone)⟩
  | false =>
    have hroot : Alike (root k k.vocabulary.multiget) (root k k.vocabulary.multiget) [] :=
      alike_root k (by cases k <;> decide)
    have hpayload : (Element.new ("c:" ++ k.vocabulary.payload)).isWellFormed = true := by
      cases k <;> decide
    have hprop : (Element.new "d:prop").isWellFormed = true := by decide
    have htag : (Element.new "d:getetag").isWellFormed = true := by decide
    have hproperties := ((Alike.new hprop).child (.new htag)).child (.new hpayload)
    have hhrefs : AlikeAll (wanted.map (Element.new "d:href").text)
        ((wanted.map fun _ => "x").map (Element.new "d:href").text)
        (wanted.flatMap fun s => [s]) := by
      apply AlikeAll.map
      intro s hs
      have hsome : s.isEmpty = false := hnonempty s hs
      have hsame : "x".isEmpty = s.isEmpty := by
        rw [hsome]
        decide
      have htext := Alike.text isWellFormed_href hsame
      rwa [presentText, hsome] at htext
    rw [List.flatMap_singleton'] at hhrefs
    exact Or.inr ⟨_, _, rfl, rfl, (hroot.child hproperties).children hhrefs⟩

end Report

/-! Invitations and shares. -/

/-- A root that declares no more than the namespace of the protocol. -/
theorem alike_davRoot
    {name : String}
    (hname : (Element.new name).isWellFormed = true) :
    let e := (Element.new name).attr "xmlns:d" Space.dav
    Alike e e [] := by
  have hspaces : ∀ s ∈ [("xmlns:d", Space.dav)], s ∈ rootSpaces :=
    List.forall_mem_singleton.2 dav_mem_rootSpaces
  exact alike_root hname hspaces

namespace InviteReply

def shape (reply : InviteReply) : InviteReply where
  accept := reply.accept
  createIn := reply.createIn.map standIn
  comment := reply.comment.map standIn

def strings (reply : InviteReply) : List String :=
  reply.createIn.toList.flatMap presentText ++ reply.comment.toList.flatMap presentText

theorem document_eq
    (reply : InviteReply) :
    reply.document =
      (((Element.new "d:invite-reply").attr "xmlns:d" Space.dav).child
        (.new ("d:" ++ reply.status.elementName))).children
          ((reply.createIn.map fun href =>
              (Element.new "d:create-in").child ((Element.new "d:href").text href)).toList ++
            (reply.comment.map (Element.new "d:comment").text).toList) := by
  unfold document
  cases reply.createIn <;> cases reply.comment <;> rfl

theorem alike_document
    (reply : InviteReply) :
    Alike reply.document reply.shape.document reply.strings := by
  have hstatus : (Element.new ("d:" ++ reply.status.elementName)).isWellFormed = true := by
    rw [status]
    cases reply.accept <;> decide
  rw [document_eq, document_eq]
  apply ((alike_davRoot (by decide)).child (.new hstatus)).children
  apply AlikeAll.append _ (alikeAll_text isWellFormed_comment reply.comment)
  apply AlikeAll.toList
  intro href
  exact .child (.new (by decide)) (.text isWellFormed_href (isEmpty_standIn href))

end InviteReply

namespace Sharee

def shape (sharee : Sharee) : Sharee where
  href := standIn sharee.href
  access := sharee.access
  comment := sharee.comment.map standIn

def strings (sharee : Sharee) : List String :=
  presentText sharee.href ++ sharee.comment.toList.flatMap presentText

theorem alike_element
    (sharee : Sharee) :
    Alike sharee.element sharee.shape.element sharee.strings := by
  have hsharee : (Element.new "d:sharee").isWellFormed = true := by decide
  have hshare : (Element.new "d:share-access").isWellFormed = true := by decide
  have haccess : (Element.new ("d:" ++ sharee.access.elementName)).isWellFormed = true := by
    cases sharee.access <;> decide
  have hhref := Alike.text isWellFormed_href (isEmpty_standIn sharee.href)
  have hcomment := alikeAll_text isWellFormed_comment sharee.comment
  have hall : Alike sharee.element sharee.shape.element (sharee.strings ++ []) :=
    (((Alike.new hsharee).child hhref).children hcomment).child
      ((Alike.new hshare).child (.new haccess))
  rwa [List.append_nil] at hall

end Sharee

namespace Share

def shape (share : Share) : Share where
  href := ""
  sharees := share.sharees.map Sharee.shape

def strings (share : Share) : List String :=
  share.sharees.flatMap Sharee.strings

theorem alike_document
    (share : Share) :
    Alike share.document share.shape.document share.strings :=
  (alike_davRoot (by decide)).children (.map fun sharee _ => sharee.alike_element)

end Share

/-! All documents that hold strings of a caller. -/

/-- A document that is to be written for a caller. -/
inductive Draft where
  | creation (f : Folder)
  | update (f : Folder)
  | search (k : Kind) (component : Option String)
  | multiget (k : Kind) (hrefs : List String)
  | reply (r : InviteReply)
  | share (s : Share)
  deriving DecidableEq, Repr

namespace Draft

/-- The document, if there is anything to ask for. -/
def document? : Draft → Option Element
  | creation f => some f.creation
  | update f => some f.update
  | search k component => some (Report.search k component)
  | multiget k hrefs => Report.multiget? k hrefs
  | reply r => some r.document
  | share s => some s.document

/-- What is left of a draft when its strings are forgotten: whatever is no string, how many
strings there are, and which of its texts are empty. -/
def shape : Draft → Draft
  | creation f => creation f.shape
  | update f => update f.shape
  | search k component => search k (component.map fun _ => "")
  | multiget k hrefs => multiget k (hrefs.map Report.standInHref)
  | reply r => reply r.shape
  | share s => share s.shape

/-- The strings of a draft that its document holds, in their order. -/
def strings : Draft → List String
  | creation f => f.fixedStrings ++ f.mutableStrings
  | update f => f.mutableStrings
  | search k component => Report.searchStrings k component
  | multiget _ hrefs => hrefs.filterMap Text.trimmed?
  | reply r => r.strings
  | share s => s.strings

/-- Whether a draft asks for items and names none. -/
def AsksForNothing : Draft → Prop
  | multiget _ hrefs => ∀ h ∈ hrefs, Text.trimmed? h = none
  | _ => False

theorem document?_cases
    (d : Draft) :
    (d.document? = none ∧ d.shape.document? = none ∧ d.AsksForNothing) ∨
      ∃ e other,
        d.document? = some e ∧ d.shape.document? = some other ∧ Alike e other d.strings := by
  cases d with
  | creation f => exact Or.inr ⟨_, _, rfl, rfl, f.alike_creation⟩
  | update f => exact Or.inr ⟨_, _, rfl, rfl, f.alike_update⟩
  | search k component => exact Or.inr ⟨_, _, rfl, rfl, Report.alike_search k component⟩
  | multiget k hrefs => exact Report.multiget?_cases k hrefs
  | reply r => exact Or.inr ⟨_, _, rfl, rfl, r.alike_document⟩
  | share s => exact Or.inr ⟨_, _, rfl, rfl, s.alike_document⟩

/-- Strings do not change the structure of a document.  The documents of two drafts of one
shape are both read, as trees with one skeleton, and the strings of each draft are all the
values and texts of its tree; or both drafts ask for no item at all. -/
theorem strings_keep_skeleton
    {b c : Draft}
    (hshape : b.shape = c.shape) :
    (b.document? = none ∧ c.document? = none ∧ b.AsksForNothing ∧ c.AsksForNothing) ∨
      ∃ d e t u,
        b.document? = some d ∧ c.document? = some e ∧
        Xml.parse (Utf8.encode d.document) = .ok t ∧
        Xml.parse (Utf8.encode e.document) = .ok u ∧
        t.skeleton = u.skeleton ∧ t.values = b.strings ∧ u.values = c.strings := by
  rcases b.document?_cases with ⟨hb, hnone, hnothing⟩ | ⟨d, other, hb, hother, hd⟩
  · rw [hshape] at hnone
    rcases c.document?_cases with ⟨hc, -, hnothing'⟩ | ⟨e, other, hc, hother, he⟩
    · exact Or.inl ⟨hb, hc, hnothing, hnothing'⟩
    · rw [hnone] at hother
      cases hother
  · rw [hshape] at hother
    rcases c.document?_cases with ⟨hc, hnone, -⟩ | ⟨e, same, hc, hsame, he⟩
    · rw [hnone] at hother
      cases hother
    · obtain rfl : same = other := Option.some.inj (hsame.symm.trans hother)
      obtain ⟨t, ht, htskeleton, htvalues⟩ := hd.parse_document
      obtain ⟨u, hu, huskeleton, huvalues⟩ := he.parse_document
      exact Or.inr
        ⟨d, e, t, u, hb, hc, ht, hu, htskeleton.trans huskeleton.symm, htvalues, huvalues⟩

/-- A plain folder, and one whose strings look like markup. -/
theorem strings_keep_skeleton_thorny :
    let plain : Draft := .creation
      { displayName := some "Work", components := ["VEVENT"], resourceTypes := ["calendar"],
        color := some "ff0000", alarms := some true }
    let thorny : Draft := .creation
      { displayName := some "</d:displayname><d:x/>]]>", components := ["\"/><c:comp y='"],
        resourceTypes := ["calendar"], color := some "&lt;!-- ", alarms := some false }
    plain.shape = thorny.shape ∧
      ∃ d e t u,
        plain.document? = some d ∧ thorny.document? = some e ∧
        Xml.parse (Utf8.encode d.document) = .ok t ∧
        Xml.parse (Utf8.encode e.document) = .ok u ∧
        t.skeleton = u.skeleton ∧
        t.values = ["VEVENT", "Work", "#ff0000", "true"] ∧
        u.values = ["\"/><c:comp y='", "</d:displayname><d:x/>]]>", "#&lt;!-- ", "false"] := by
  intro plain thorny
  have hshape : plain.shape = thorny.shape := by decide
  have hplain : plain.strings = ["VEVENT", "Work", "#ff0000", "true"] := by decide
  have hthorny : thorny.strings =
      ["\"/><c:comp y='", "</d:displayname><d:x/>]]>", "#&lt;!-- ", "false"] := by
    decide
  rcases strings_keep_skeleton hshape with ⟨-, -, hnothing, -⟩ | hread
  · cases hnothing
  · rw [hplain, hthorny] at hread
    exact ⟨hshape, hread⟩

end Draft
end PimDav
