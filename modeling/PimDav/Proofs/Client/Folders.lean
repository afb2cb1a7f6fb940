import PimDav.Client.Folders
import PimDav.Proofs.Attempts
import PimDav.Proofs.Response.Folders
import PimDav.Proofs.Uri.Root

/-!
# Folders come back as they were created

A server that tells of folders with the properties with which they were created gets them
to the caller unchanged: one folder when it is asked for, and of all folders under a home
those for the kind that is asked for.
-/

namespace PimDav

open Http (Call Receipt)
open Xml (Built Element)

/-- A call to an href reaches the server, and what the server says to it is a document. -/
structure Server.Answers
    (a : Account)
    (href : String)
    (v : Server)
    (e : Element) : Prop where
  resolves : ∃ uri, a.base.resolve href = .ok uri
  reachable : v.reachable = true
  answered : ∃ answer replies, v.replies = .answer answer :: replies ∧
    Http.isSuccess answer.code = true ∧
    answer.body.decode? answer.headers.codings = some (Utf8.encode e.document)

namespace Client

variable {a : Account} {base : Uri} {sp : Spelling}

/-- What is read of an element that was written and read is what is read of the element
itself. -/
theorem map_folderOf_placed
    {e : Element}
    (hbuilt : Built e) :
    (e.placed.descendants "response").map (folderOf base) =
      (e.descendants "response").map (folderOf base) := by
  have hsame : folderOf base ∘ Element.withoutSpaces = folderOf base := by
    funext response
    rw [Function.comp_apply, folderOf, (Response.readsAlike_withoutSpaces response).folder,
      folderOf]
  rw [← hbuilt.descendants_placed, List.map_map, hsame]

/-- A folder is known by the href behind the root. -/
theorem folderOf_folderResponse
    {f : Folder}
    (hpath : Target.IsPath base.path)
    (hf : f.IsWritable)
    (hhref : Text.endsBlank (base.root ++ f.href) = false) :
    folderOf base (sp.folderResponse base.root f) = f := by
  obtain ⟨cs, hcs⟩ := (Uri.isPath_root hpath).slash
  have hslash : (base.root ++ f.href).toList = '/' :: (cs ++ f.href.toList) := by
    rw [String.toList_append, hcs]
    rfl
  rw [folderOf, Folder.ofResponse_folderResponse hf hslash hhref]
  dsimp only
  rw [Uri.relative_root_append hpath]

/-- A call that is answered with folders gets a receipt from which they are read. -/
theorem perform_of_answers
    {c : Call}
    {s : Session}
    {folders : List Folder}
    (hpath : Target.IsPath a.base.path)
    (hsound : sp.namesSoundly = true)
    (hwritable : ∀ f ∈ folders, f.IsWritable)
    (hhref : ∀ f ∈ folders, Text.endsBlank (a.base.root ++ f.href) = false)
    (hanswers : s.server.Answers a c.href
      (sp.answer (folders.map (sp.folderResponse a.base.root)))) :
    ∃ receipt later, Exchange.perform a c s = (.ok receipt, later) ∧
      receipt.responses.map (folderOf a.base) = folders := by
  generalize hresponses : folders.map (sp.folderResponse a.base.root) = responses at hanswers
  have hparts : ∀ r ∈ responses, Folder.IsPart "response" r := by
    intro r hr
    rw [← hresponses] at hr
    obtain ⟨f, -, rfl⟩ := List.mem_map.1 hr
    exact Folder.isPart_folderResponse hsound a.base.root f
  have hbuilt : Built (sp.answer responses) :=
    Spelling.built_answer sp fun r hr => (hparts r hr).built
  have hwf : (sp.answer responses).isWellFormed = true := by
    rw [Spelling.namesSoundly, Bool.and_eq_true] at hsound
    rw [Spelling.isWellFormed_answer, hsound.1, Bool.true_and, List.all_eq_true]
    intro r hr
    exact (hparts r hr).isWellFormed
  have hfound : (sp.answer responses).descendants "response" = responses := by
    apply Spelling.descendants_answer
    intro r hr
    have hname := (hparts r hr).localName
    exact ⟨(congrArg (Text.caseless · "response") hname).trans (Text.caseless_self _),
      (hparts r hr).noResponse⟩
  obtain ⟨uri, hresolve⟩ := hanswers.resolves
  obtain ⟨answer, replies, hreplies, hcode, hbody⟩ := hanswers.answered
  have hperform := Exchange.perform_answer (c := c) hresolve hanswers.reachable hreplies hcode
    hbody (Exchange.receive_document hbuilt.isJoined hwf)
  refine ⟨_, (Exchange.perform a c s).2, Prod.ext hperform rfl, ?_⟩
  calc ((sp.answer responses).placed.descendants "response").map (folderOf a.base)
      = responses.map (folderOf a.base) := by rw [map_folderOf_placed hbuilt, hfound]
    _ = folders := by
      rw [← hresponses, List.map_map, List.map_congr_left (g := id), List.map_id]
      intro f hf
      exact folderOf_folderResponse hpath (hwritable f hf) (hhref f hf)

/-- What is noted when folders were listed. -/
def foldersEntry
    (k : Kind)
    (folders : List Folder) : PimDav.Entry :=
  entry .debug "listed folders" [("kind", k.component), ("count", toString folders.length)]

theorem listFolders_eq
    (base : Uri)
    (k : Kind) :
    listFolders base k =
      (Discovery.search base k).andThen fun found =>
        match found with
        | none => .done none
        | some found =>
          .ask (.propfind found.home .one (Folder.listing (some k)))
            (fun f => [complaint "failed to list folders" [("kind", k.component)] f])
            fun receipt =>
              let folders := (receipt.responses.map (folderOf base)).filter (·.supports k)
              .note (foldersEntry k folders) (.done (some folders)) := by
  rfl

/-- A server that tells of writable folders with the properties with which they were created
gets each of them back unchanged to a caller who asks for it.  To a caller who asks for
all folders of a kind it gets those that support the kind, once each and in their order. -/
theorem folders_of_created
    {address : String}
    {folders : List Folder}
    (hbase : Uri.read address = .ok a.base)
    (hsound : sp.namesSoundly = true)
    (hwritable : ∀ f ∈ folders, f.IsWritable)
    (hhref : ∀ f ∈ folders, Text.endsBlank (a.base.root ++ f.href) = false) :
    (∀ f ∈ folders, ∀ href s,
      s.server.Answers a href (sp.answer [sp.folderResponse a.base.root f]) →
      ((folderAt a.base href).run a s).1 = .ok (some f)) ∧
    ∀ k s found atHome,
      (Discovery.search a.base k).run a s = (.ok (some found), atHome) →
      atHome.server.Answers a found.home
        (sp.answer (folders.map (sp.folderResponse a.base.root))) →
      ((listFolders a.base k).run a s).1 = .ok (some (folders.filter (·.supports k))) := by
  have hpath := Uri.isPath_of_read hbase
  constructor
  · intro f hf href s hanswers
    have hone : ∀ g ∈ [f], g.IsWritable := by
      intro g hg
      exact List.mem_singleton.1 hg ▸ hwritable f hf
    have hend : ∀ g ∈ [f], Text.endsBlank (a.base.root ++ g.href) = false := by
      intro g hg
      exact List.mem_singleton.1 hg ▸ hhref f hf
    obtain ⟨receipt, later, hperform, hread⟩ :=
      perform_of_answers (c := .propfind href .zero (Folder.listing none)) hpath hsound hone hend
        hanswers
    rw [folderAt, Plan.bind_eq, Plan.call, Plan.andThen, Plan.run, hperform]
    have hhead : receipt.responses.head?.map (folderOf a.base) = some f := by
      rw [← List.head?_map, hread]
      rfl
    exact congrArg Except.ok hhead
  · intro k s found atHome hsearch hanswers
    obtain ⟨receipt, later, hperform, hread⟩ :=
      perform_of_answers (c := .propfind found.home .one (Folder.listing (some k))) hpath hsound
        hwritable hhref hanswers
    rw [listFolders_eq, Plan.run_andThen, hsearch]
    dsimp only
    rw [Plan.run, hperform]
    dsimp only
    rw [hread]
    rfl

/-- A calendar with a thorny name and components, and an address book that says no more than
its type. -/
theorem folders_of_created_thorny :
    let a : Account := { base := ⟨"https", "dav.example", ⟨"/dav/", none⟩⟩ }
    let sp : Spelling := { dav := none, attributes := [("xmlns", Space.dav)] }
    let calendar : Folder :=
      { href := "a b/", displayName := some "<&> \"", components := ["VEVENT", " '\n&"],
        resourceTypes := ["collection", "calendar"], color := some "00ffAA7",
        alarms := some false }
    let book : Folder := { href := "", resourceTypes := ["collection", "addressbook"] }
    let reply (pieces : List String) : Http.Reply :=
      .answer { body := .plain (pieces.flatMap Utf8.encode) }
    let search := ["current-user-principal", "calendar-home-set"].map fun property =>
      reply ["<?xml?><m><response><propstat><prop><", property, "><href>p</href></", property,
        "></prop></propstat></response></m>"]
    let telling (folders : List Folder) : Http.Reply :=
      let document := (sp.answer (folders.map (sp.folderResponse a.base.root))).document
      .answer { body := .plain (Utf8.encode document) }
    let listing : Session := { server := { replies := search ++ [telling [calendar, book]] } }
    let asking : Session := { server := { replies := [telling [book]] } }
    ((listFolders a.base .event).run a listing).1 = .ok (some [calendar]) ∧
      ((folderAt a.base "").run a asking).1 = .ok (some book) := by
  intro a sp calendar book reply search telling listing asking
  have hbase : Uri.read "https://dav.example/dav/" = .ok a.base := by rfl
  have hsound : sp.namesSoundly = true := by decide +kernel
  have hwritable : ∀ f ∈ [calendar, book], f.IsWritable := by
    have hcalendar : calendar.IsWritable :=
      { displayName := by
          rintro _ ⟨⟩
          exact ⟨by decide, by decide +kernel⟩
        changeTag := rfl
        color := by
          rintro _ ⟨⟩
          exact ⟨by decide, by decide, List.all_eq_true.1 (by decide)⟩
        types := Or.inl rfl }
    have hbook : book.IsWritable :=
      { displayName := nofun
        changeTag := rfl
        color := nofun
        types := Or.inr ⟨rfl, rfl⟩ }
    exact List.forall_mem_cons.2 ⟨hcalendar, List.forall_mem_singleton.2 hbook⟩
  have hhref : ∀ f ∈ [calendar, book], Text.endsBlank (a.base.root ++ f.href) = false := by
    decide +kernel
  obtain ⟨hone, hall⟩ := folders_of_created hbase hsound hwritable hhref
  have hresolves : ∀ href ∈ ["p", ""], ∃ uri, a.base.resolve href = .ok uri := by
    have hsome : ∀ href ∈ ["p", ""], (a.base.resolve href).toOption.isSome = true := by
      decide +kernel
    intro href hhref
    obtain ⟨uri, huri⟩ := Option.isSome_iff_exists.1 (hsome href hhref)
    exact ⟨uri, eq_ok_of_toOption huri⟩
  constructor
  · obtain ⟨hfound, hleft⟩ :
        ((Discovery.search a.base .event).run a listing).1.toOption = some (some ⟨"p", "p"⟩) ∧
          ((Discovery.search a.base .event).run a listing).2.server.replies.length = 1 := by
      decide +kernel
    have hled := Plan.leadTo_run a (Discovery.search a.base .event) listing
    generalize hsearch : (Discovery.search a.base .event).run a listing = done
      at hfound hleft hled
    obtain ⟨outcome, atHome⟩ := done
    obtain rfl := eq_ok_of_toOption hfound
    have hserver := hled.server rfl
    -- The search used up two replies, so the listing comes next.
    have hreplies : atHome.server.replies = [telling [calendar, book]] := by
      rw [hserver] at hleft ⊢
      generalize (((Discovery.search a.base .event).attempts a listing.server).flatMap
        fun t => Exchange.requests a t.call).length = sent at hleft ⊢
      have hsent : sent = 2 := by
        rw [List.length_drop] at hleft
        have hlength : listing.server.replies.length = 3 := rfl
        omega
      subst hsent
      rfl
    have hlisted := hall .event listing ⟨"p", "p"⟩ atHome hsearch
      { resolves := hresolves "p" (by decide)
        reachable := congrArg Server.reachable hserver
        answered := ⟨_, [], hreplies, rfl, rfl⟩ }
    have hkept : [calendar, book].filter (·.supports .event) = [calendar] := by decide +kernel
    exact hlisted.trans (congrArg (Except.ok ∘ some) hkept)
  · apply hone book (by simp) "" asking
    exact
      { resolves := hresolves "" (by decide)
        reachable := rfl
        answered := ⟨_, [], rfl, rfl, rfl⟩ }

end Client
end PimDav
