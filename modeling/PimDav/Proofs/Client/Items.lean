import PimDav.Client.Items
import PimDav.Proofs.Exchange
import PimDav.Proofs.Response.Multistatus
import PimDav.Proofs.Response.Names
import PimDav.Proofs.Uri.Root

/-!
# Items come as they were sent

What a server tells of items reaches the caller: every item once, in order, with
its href relative to the root, its tag and its payload as they are.  What the
server misses is left out, and nothing else is.
-/

namespace PimDav
namespace Client

open Http (Answer Reply)
open Xml (Built Element)

variable {base : Uri} {k : Kind}

theorem itemsOf_withoutSpaces
    (base : Uri)
    (k : Kind)
    (responses : List Element) :
    itemsOf base k (responses.map Element.withoutSpaces) = itemsOf base k responses := by
  have hok : Response.isOk ∘ Element.withoutSpaces = Response.isOk := by
    funext response
    exact (Response.readsAlike_withoutSpaces response).isOk
  have hitem : ∀ response : Element,
      Item.ofResponse k response.withoutSpaces = Item.ofResponse k response :=
    fun response => (Response.readsAlike_withoutSpaces response).item k
  rw [itemsOf, itemsOf, List.filter_map, hok, List.map_map]
  simp only [Function.comp_def, hitem]

/-- The items of an element that was written and read are those of the element
itself. -/
theorem itemsOf_placed
    {e : Element}
    (hbuilt : Built e) :
    itemsOf base k (e.placed.descendants "response") =
      itemsOf base k (e.descendants "response") := by
  rw [← itemsOf_withoutSpaces, hbuilt.descendants_placed]

theorem itemsOf_cons
    (base : Uri)
    (k : Kind)
    (response : Element)
    (rest : List Element) :
    itemsOf base k (response :: rest) =
      let item := Item.ofResponse k response
      (if Response.isOk response then [{ item with href := base.relative item.href }] else []) ++
        itemsOf base k rest := by
  rw [itemsOf, List.filter_cons]
  cases Response.isOk response with
  | true => rfl
  | false => rfl

/-- The responses that a server writes are read as the items that it tells of. -/
theorem itemsOf_responses
    (hpath : Target.IsPath base.path)
    (sp : Spelling)
    {reports : List Reported}
    (hhref : ∀ r ∈ reports, Text.endsBlank (base.root ++ r.href) = false) :
    itemsOf base k (reports.map (sp.response k base.root)) =
      reports.filterMap (Reported.item? k) := by
  induction reports with
  | nil => rfl
  | cons r reports ih =>
    have hrest := ih fun r hr => hhref r (List.mem_cons_of_mem _ hr)
    rw [List.map_cons, itemsOf_cons, hrest, Spelling.isOk_response]
    cases r with
    | missing href => simp [List.filterMap_cons, Reported.item?]
    | item href tag payload =>
      obtain ⟨cs, hcs⟩ := (Uri.isPath_root hpath).slash
      have hslash : (base.root ++ href).toList = '/' :: (cs ++ href.toList) := by
        rw [String.toList_append, hcs]
        rfl
      have hend := hhref (.item href tag payload) List.mem_cons_self
      rw [Reported.href] at hend
      have hitem := sp.ofResponse_item k hslash hend tag payload
      simp [Reported.item?, hitem, Uri.relative_root_append hpath]

/-- A report that is answered with success hands out the items of the document in the
answer. -/
theorem run_report_of_brings
    {a : Account}
    {s : Session}
    {folder : String}
    {uri : Uri}
    {body : Bytes}
    {root : Element}
    (hfolder : a.base.resolve folder = .ok uri)
    (hbrings : Exchange.Brings s body)
    (hreceived : Exchange.receive body = .ok (.document root))
    (k : Kind)
    (complaint : Fault → PimDav.Entry)
    (question : Element) :
    (((Plan.callNoting complaint (.report folder .one question)).andThen fun receipt =>
        .done (itemsOf a.base k receipt.responses)).run a s).1 =
      .ok (itemsOf a.base k (root.descendants "response")) := by
  obtain ⟨code, headers, hperform⟩ :=
    Exchange.perform_of_brings hbrings a (.report folder .one question)
  have hhref : (Http.Call.report folder .one question).href = folder := rfl
  rw [hhref, hfolder, hreceived] at hperform
  rw [Plan.callNoting, Plan.andThen, Plan.run]
  cases hdone : Exchange.perform a (.report folder .one question) s with
  | mk outcome later =>
    rw [hdone] at hperform
    dsimp only at hperform
    rw [hperform]
    rfl

/-- A report that is answered with success and a written document hands out the items
that the document tells of. -/
theorem run_report
    {a : Account}
    {s : Session}
    {folder : String}
    {uri : Uri}
    {answer : Answer}
    {replies : List Reply}
    {sp : Spelling}
    {reports : List Reported}
    (hpath : Target.IsPath a.base.path)
    (hsound : sp.isSound k = true)
    (hhref : ∀ r ∈ reports, Text.endsBlank (a.base.root ++ r.href) = false)
    (hfolder : a.base.resolve folder = .ok uri)
    (hreachable : s.server.reachable = true)
    (hreplies : s.server.replies = .answer answer :: replies)
    (hcode : Http.isSuccess answer.code = true)
    (hbody : answer.body.decode? answer.headers.codings =
      some (Utf8.encode (sp.multistatus k a.base.root reports).document))
    (complaint : Fault → PimDav.Entry)
    (question : Element) :
    (((Plan.callNoting complaint (.report folder .one question)).andThen fun receipt =>
        .done (itemsOf a.base k receipt.responses)).run a s).1 =
      .ok (reports.filterMap (Reported.item? k)) := by
  have hbuilt := Spelling.built_multistatus sp k a.base.root reports
  have hwf := Spelling.isWellFormed_multistatus hsound a.base.root reports
  have hreceived := Exchange.receive_document hbuilt.isJoined hwf
  have hbrings : Exchange.Brings s _ := ⟨answer, replies, hreachable, hreplies, hcode, hbody⟩
  rw [run_report_of_brings hfolder hbrings hreceived, itemsOf_placed hbuilt,
    Spelling.descendants_multistatus, itemsOf_responses hpath sp hhref]

/-- There is something to fetch as soon as one href is not blank. -/
theorem multiget?_eq_some
    {hrefs : List String}
    (hpath : Target.IsPath base.path)
    (hsome : ∃ h ∈ hrefs, (Text.trimmed? h).isSome = true) :
    ∃ document,
      Report.multiget? k ((hrefs.filterMap Text.trimmed?).map base.absolute) = some document := by
  obtain ⟨h, hmem, hsome⟩ := hsome
  obtain ⟨t, ht⟩ := Option.isSome_iff_exists.1 hsome
  have hkept : (hrefs.filterMap Text.trimmed?).map base.absolute ≠ [] :=
    List.ne_nil_of_mem (List.mem_map_of_mem (List.mem_filterMap.2 ⟨h, hmem, ht⟩))
  rw [Report.multiget?, Uri.filterMap_trimmed?_absolute hpath, List.isEmpty_eq_false_iff.2 hkept]
  exact ⟨_, rfl⟩

/-- Searching and fetching hand out exactly the items that the server tells of, in
order, whatever their tags and payloads hold. -/
theorem items_of_answer
    {address folder : String}
    {a : Account}
    {s : Session}
    {uri : Uri}
    {answer : Answer}
    {replies : List Reply}
    {reports : List Reported}
    {sp : Spelling}
    (k : Kind)
    (hbase : Uri.read address = .ok a.base)
    (hhref : ∀ r ∈ reports, Text.endsBlank (a.base.root ++ r.href) = false)
    (hsound : sp.isSound k = true)
    (hfolder : a.base.resolve folder = .ok uri)
    (hreachable : s.server.reachable = true)
    (hreplies : s.server.replies = .answer answer :: replies)
    (hcode : answer.code = 207)
    (hbody : answer.body.decode? answer.headers.codings =
      some (Utf8.encode (sp.multistatus k a.base.root reports).document)) :
    (∀ component,
      ((search a.base folder k component).run a s).1 =
        .ok (reports.filterMap (Reported.item? k))) ∧
      ∀ hrefs : List String, (∃ h ∈ hrefs, (Text.trimmed? h).isSome = true) →
        ((fetch a.base folder k hrefs).run a s).1 =
          .ok (reports.filterMap (Reported.item? k)) := by
  have hpath := Uri.isPath_of_read hbase
  have hsuccess : Http.isSuccess answer.code = true := by
    rw [hcode]
    decide
  constructor
  · intro component
    exact run_report hpath hsound hhref hfolder hreachable hreplies hsuccess hbody _ _
  · intro hrefs hsome
    obtain ⟨document, hdocument⟩ := multiget?_eq_some (k := k) hpath hsome
    rw [fetch, hdocument]
    exact run_report hpath hsound hhref hfolder hreachable hreplies hsuccess hbody _ _

/-- A packed answer about an item with a thorny tag and payload, a missing one, and one
without any text. -/
theorem items_of_answer_thorny :
    let base : Uri := ⟨"https", "dav.example", ⟨"/dav", none⟩⟩
    let sp : Spelling :=
      { attributes := [("xmlns:d", Space.dav), ("xmlns:c", Space.calDav)], notFound := none }
    let reports : List Reported :=
      [.item "cal/a b.ics" " \"&<" "BEGIN:VCALENDAR\r\n]]>&amp;\r\n ", .missing "cal/c.ics",
        .item "" "" ""]
    let answer : Answer :=
      { code := 207
        headers := ⟨[.ofText "content-encoding" "gzip"]⟩
        body := .coded .gzip
          (.plain (Utf8.encode (sp.multistatus .event base.root reports).document)) }
    let s : Session := { server := { replies := [.answer answer] } }
    let items : List Item :=
      [{ kind := .event, href := "cal/a b.ics", tag := some " \"&<",
         payload := some "BEGIN:VCALENDAR\r\n]]>&amp;\r\n " },
        { kind := .event, href := "", tag := some "", payload := some "" }]
    ((search base "cal/" .event none).run { base } s).1 = .ok items ∧
      ((fetch base "cal/" .event [" ", "cal/a b.ics"]).run { base } s).1 = .ok items := by
  intro base sp reports answer s items
  have hbase : Uri.read "https://dav.example/dav" = .ok base := by rfl
  have hhref : ∀ r ∈ reports, Text.endsBlank (base.root ++ r.href) = false := by decide +kernel
  have hsound : sp.isSound .event = true := by decide +kernel
  have hfolder : base.resolve "cal/" = .ok { base with target := ⟨"/dav/cal/", none⟩ } := by
    have hweb : Uri.isWebAddress "cal/" = false := by decide
    have htarget : Target.read? (base.targetText "cal/") = some ⟨"/dav/cal/", none⟩ := by
      decide +kernel
    rw [Uri.resolve, hweb, if_neg Bool.false_ne_true, htarget]
  have hcodings : answer.headers.codings = [.gzip] := by decide +kernel
  have hbody : answer.body.decode? answer.headers.codings =
      some (Utf8.encode (sp.multistatus .event base.root reports).document) := by
    rw [hcodings]
    rfl
  obtain ⟨hsearch, hfetch⟩ :=
    items_of_answer (a := { base }) (s := s) .event hbase hhref hsound hfolder rfl rfl rfl hbody
  exact ⟨hsearch none, hfetch _ ⟨"cal/a b.ics", by simp, by decide +kernel⟩⟩

end Client
end PimDav
