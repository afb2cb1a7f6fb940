import PimDav.Proofs.Client.Folders
import PimDav.Proofs.Client.Topics

/-!
# Entries that are reported as failed

A response may report that there was a failure for the whole resource.  A search and a fetch
of items leave such a response out.  Operations on folders and notifications do not look
at what it reports, and hand out what they read of it as of any other one.
-/

namespace PimDav

open Http (Call)
open Notification (Listed)
open Xml (Element)

namespace Notification
namespace Listed

/-- Whether a response makes an entry with one of the topics. -/
def isWanted
    (topics : List Topic)
    (response : Element) : Bool :=
  (ofResponse? response).any fun l => topics.isEmpty || topics.contains l.topic

theorem filterMap_isWanted
    (topics : List Topic)
    (responses : List Element) :
    (responses.filter (isWanted topics)).filterMap ofResponse? = wanted topics responses := by
  rw [wanted, List.filter_filterMap, List.filterMap_filter]
  apply congrArg (responses.filterMap ·)
  funext response
  rw [isWanted]
  cases ofResponse? response with
  | none => rfl
  | some l => cases topics.isEmpty || topics.contains l.topic <;> simp [Option.filter]

end Listed
end Notification

namespace Client

/-- The item that a response describes, its href relative to the root. -/
def itemOf
    (base : Uri)
    (k : Kind)
    (response : Element) : Item :=
  let item := Item.ofResponse k response
  { item with href := base.relative item.href }

end Client

namespace Operation

/-- Whether an operation hands out what it reads of the responses to a listing. -/
def handsOutEntries : Operation → Bool
  | listFolders _ => true
  | folderAt _ => true
  | search .. => true
  | fetch .. => true
  | listNotifications _ => true
  | _ => false

/-- Whether an operation leaves out what is reported as failed. -/
def mindsFailures : Operation → Bool
  | search .. => true
  | fetch .. => true
  | _ => false

/-- The responses that an operation is about, whatever they report. -/
def chosen
    (base : Uri) :
    Operation →
    List Element →
    List Element
  | listFolders k, responses => responses.filter fun r => (Client.folderOf base r).supports k
  | folderAt _, responses => responses.take 1
  | listNotifications topics, responses => responses.filter (Listed.isWanted topics)
  | _, responses => responses

/-- The responses that an operation reads. -/
def taken
    (base : Uri)
    (operation : Operation)
    (responses : List Element) : List Element :=
  if operation.mindsFailures then (operation.chosen base responses).filter Response.isOk
  else operation.chosen base responses

/-- The calls that are made for each response that was read. -/
def followUps : Operation → List Element → List Call
  | listNotifications _, responses => (responses.filterMap Listed.ofResponse?).map Listed.fetch
  | _, _ => []

/-- What an operation reads of responses, and of what was fetched for them. -/
def reading
    (base : Uri)
    (gets : List Attempt) :
    Operation →
    List Element →
    Outcome
  | listFolders _, responses => .folders (some (responses.map (Client.folderOf base)))
  | folderAt _, responses => .folder (responses.head?.map (Client.folderOf base))
  | search _ k _, responses => .items (responses.map (Client.itemOf base k))
  | fetch _ k _, responses => .items (responses.map (Client.itemOf base k))
  | listNotifications _, responses =>
    .notifications (((responses.filterMap Listed.ofResponse?).zip gets).filterMap fun pair =>
      pair.1.fetched? base pair.2)
  | _, _ => .nothing

variable {a : Account} {s : Session} {operation : Operation} {outcome : Outcome}

theorem forall_taken_iff
    (base : Uri)
    (operation : Operation)
    (responses : List Element) :
    (∀ r ∈ operation.taken base responses, Response.isOk r = true) ↔
      operation.mindsFailures = true ∨
        ∀ r ∈ operation.chosen base responses, Response.isOk r = true := by
  rw [taken]
  cases operation.mindsFailures with
  | true =>
    rw [if_pos rfl]
    exact ⟨fun _ => Or.inl rfl, fun _ r hr => (List.mem_filter.1 hr).2⟩
  | false => simp

/-- An operation hands out what it reads of the responses to one call: of each response that
it takes, once and in their order, and for notifications of what it fetched afterwards. -/
def ReadsOf
    (a : Account)
    (operation : Operation)
    (tried : List Attempt)
    (outcome : Outcome)
    (responses : List Element) : Prop :=
  ∃ before t gets receipt,
    tried = before ++ t :: gets ∧
      t.outcome = .ok receipt ∧
      receipt.responses = responses ∧
      gets.map (·.call) = operation.followUps (operation.taken a.base responses) ∧
      outcome = operation.reading a.base gets (operation.taken a.base responses)

/-- An operation that hands out the result of a plan. -/
theorem ok_of_plan
    {α : Type}
    {p : Plan α}
    {result : α → Outcome}
    (hplan : operation.plan a.base = p.andThen fun value => .done (result value))
    (hdone : ((operation.plan a.base).run a s).1 = .ok outcome) :
    ∃ value,
      (p.run a s).1 = .ok value ∧
      (operation.plan a.base).attempts a s.server = p.attempts a s.server ∧
      result value = outcome := by
  rw [hplan, Plan.run_andThen_done] at hdone
  rw [hplan, Plan.attempts_andThen_done]
  cases hp : (p.run a s).1 with
  | error f =>
    rw [hp] at hdone
    cases hdone
  | ok value =>
    rw [hp] at hdone
    exact ⟨value, rfl, rfl, Except.ok.inj hdone⟩

/-! How each operation comes by what it hands out. -/

theorem readsOf_listFolders
    {k : Kind}
    {list : Option (List Folder)}
    (hdone : ((Client.listFolders a.base k).run a s).1 = .ok list) :
    list = none ∨ ∃ responses,
      (listFolders k).ReadsOf a ((Client.listFolders a.base k).attempts a s.server)
        (.folders list) responses := by
  rw [Client.listFolders_eq] at hdone ⊢
  obtain ⟨found, atHome, -, htried, hdone⟩ := Plan.ok_of_andThen hdone
  cases found with
  | none =>
    cases hdone
    exact Or.inl rfl
  | some found =>
    obtain ⟨receipt, later, -, houtcome, hlisted, hdone⟩ := Plan.ok_of_ask hdone
    cases hdone
    have hmap : (receipt.responses.map (Client.folderOf a.base)).filter (·.supports k) =
        ((listFolders k).taken a.base receipt.responses).map (Client.folderOf a.base) :=
      List.filter_map
    rw [htried, hlisted, hmap]
    exact Or.inr ⟨_, _, _, [], receipt, rfl, houtcome, rfl, rfl, rfl⟩

theorem readsOf_folderAt
    {href : String}
    {f : Option Folder}
    (hdone : ((Client.folderAt a.base href).run a s).1 = .ok f) :
    ∃ responses,
      (folderAt href).ReadsOf a ((Client.folderAt a.base href).attempts a s.server)
        (.folder f) responses := by
  obtain ⟨receipt, later, -, houtcome, htried, hdone⟩ := Plan.ok_of_ask hdone
  cases hdone
  have hhead : receipt.responses.head? =
      ((folderAt href).taken a.base receipt.responses).head? := by
    cases receipt.responses <;> rfl
  rw [hhead]
  exact ⟨_, [], _, [], receipt, htried, houtcome, rfl, rfl, rfl⟩

/-- A report on items is asked for and its responses are read. -/
theorem readsOf_report
    {k : Kind}
    {call : Call}
    {complaint : Fault → Entry}
    {list : List Item}
    (hdone : (((Plan.callNoting complaint call).andThen fun receipt =>
      .done (Client.itemsOf a.base k receipt.responses)).run a s).1 = .ok list)
    (hreads : ∀ gets responses,
      operation.reading a.base gets responses = .items (responses.map (Client.itemOf a.base k)))
    (htaken : ∀ responses, operation.taken a.base responses = responses.filter Response.isOk)
    (hfollow : ∀ responses, operation.followUps responses = []) :
    ∃ responses,
      operation.ReadsOf a
        (((Plan.callNoting complaint call).andThen fun receipt =>
          .done (Client.itemsOf a.base k receipt.responses)).attempts a s.server)
        (.items list) responses := by
  obtain ⟨receipt, later, -, houtcome, htried, hdone⟩ := Plan.ok_of_ask hdone
  cases hdone
  refine ⟨_, [], _, [], receipt, htried, houtcome, rfl, (hfollow _).symm, ?_⟩
  rw [hreads, htaken]
  rfl

theorem readsOf_fetch
    {folder : String}
    {k : Kind}
    {hrefs : List String}
    {list : List Item}
    (hdone : ((Client.fetch a.base folder k hrefs).run a s).1 = .ok list) :
    list = [] ∨ ∃ responses,
      (fetch folder k hrefs).ReadsOf a ((Client.fetch a.base folder k hrefs).attempts a s.server)
        (.items list) responses := by
  unfold Client.fetch at hdone ⊢
  cases hdocument :
      Report.multiget? k ((hrefs.filterMap Text.trimmed?).map a.base.absolute) with
  | none =>
    rw [hdocument] at hdone
    cases hdone
    exact Or.inl rfl
  | some document =>
    rw [hdocument] at hdone
    exact Or.inr (readsOf_report hdone (fun _ _ => rfl) (fun _ => rfl) fun _ => rfl)

theorem readsOf_listNotifications
    {topics : List Topic}
    {list : List Notification}
    (hdone : ((Client.listNotifications a.base topics).run a s).1 = .ok list) :
    list = [] ∨ ∃ responses,
      (listNotifications topics).ReadsOf a
        ((Client.listNotifications a.base topics).attempts a s.server)
        (.notifications list) responses := by
  rcases Client.listNotifications_ok_cases hdone with
    ⟨rfl, -⟩ | ⟨before, t, receipt, gets, htried, -, -, houtcome, hfetches⟩
  · exact Or.inl rfl
  · have hwanted : ((listNotifications topics).taken a.base receipt.responses).filterMap
        Listed.ofResponse? = Listed.wanted topics receipt.responses :=
      Listed.filterMap_isWanted topics receipt.responses
    obtain ⟨hlength, hlist⟩ := hfetches.finishes hfetches.exists_document
    have hcalls := hfetches.calls
    rw [hlength, List.take_length, ← hwanted] at hcalls
    rw [← hwanted] at hlist
    refine Or.inr ⟨_, before, t, gets, receipt, htried, houtcome, rfl, hcalls, ?_⟩
    exact congrArg Outcome.notifications (Except.ok.inj hlist)

/-- What an operation on entries hands out is nothing at all, or what it reads of the
responses that it takes.  None of these reports a failure if the operation leaves those
out, which searches and fetches of items do, or if there are none among the responses that
it is about.  In any other case what is reported as failed is read like the rest. -/
theorem reads_failed_entries_iff
    (hop : operation.handsOutEntries = true)
    (hdone : ((operation.plan a.base).run a s).1 = .ok outcome) :
    outcome ∈ [.folders none, .items [], .notifications []] ∨
      ∃ responses,
        operation.ReadsOf a ((operation.plan a.base).attempts a s.server) outcome responses ∧
        ((∀ r ∈ operation.taken a.base responses, Response.isOk r = true) ↔
          operation.mindsFailures = true ∨
            ∀ r ∈ operation.chosen a.base responses, Response.isOk r = true) := by
  suffices hreads : outcome ∈ [.folders none, .items [], .notifications []] ∨
      ∃ responses,
        operation.ReadsOf a ((operation.plan a.base).attempts a s.server) outcome responses by
    rcases hreads with hsilent | ⟨responses, hreads⟩
    · exact Or.inl hsilent
    · exact Or.inr ⟨responses, hreads, forall_taken_iff a.base operation responses⟩
  cases operation with
  | listFolders k =>
    obtain ⟨list, hlist, htried, rfl⟩ := ok_of_plan rfl hdone
    rw [htried]
    rcases readsOf_listFolders hlist with rfl | hreads
    · exact Or.inl (by simp)
    · exact Or.inr hreads
  | folderAt href =>
    obtain ⟨f, hfound, htried, rfl⟩ := ok_of_plan rfl hdone
    rw [htried]
    exact Or.inr (readsOf_folderAt hfound)
  | search folder k component =>
    obtain ⟨list, hlist, htried, rfl⟩ := ok_of_plan rfl hdone
    rw [htried]
    exact Or.inr (readsOf_report hlist (fun _ _ => rfl) (fun _ => rfl) fun _ => rfl)
  | fetch folder k hrefs =>
    obtain ⟨list, hlist, htried, rfl⟩ := ok_of_plan rfl hdone
    rw [htried]
    rcases readsOf_fetch hlist with rfl | hreads
    · exact Or.inl (by simp)
    · exact Or.inr hreads
  | listNotifications topics =>
    obtain ⟨list, hlist, htried, rfl⟩ := ok_of_plan rfl hdone
    rw [htried]
    rcases readsOf_listNotifications hlist with rfl | hreads
    · exact Or.inl (by simp)
    · exact Or.inr hreads
  | _ => cases hop

/-- A server that tells of one resource and reports a status for it. -/
def statusServer (href status : String) : Server :=
  let pieces := ["<?xml?><m><response><href>", href, "</href><status>", status,
    "</status></response></m>"]
  { replies := [.answer { code := 207, body := .plain (pieces.flatMap Utf8.encode) }] }

/-- A search that finds one item. -/
theorem reads_failed_entries_iff_search :
    let a : Account := { base := ⟨"https", "dav.example", ⟨"/dav/", none⟩⟩ }
    let s : Session := { server := statusServer "/dav/a.ics" "HTTP/1.1 200 OK" }
    let operation := search "" .event none
    let outcome := Outcome.items [{ kind := .event, href := "a.ics" }]
    ((operation.plan a.base).run a s).1 = .ok outcome ∧
      ∃ responses,
        operation.ReadsOf a ((operation.plan a.base).attempts a s.server) outcome responses ∧
          ∀ r ∈ operation.taken a.base responses, Response.isOk r = true := by
  intro a s operation outcome
  have hdone : ((operation.plan a.base).run a s).1 = .ok outcome :=
    eq_ok_of_toOption (by decide +kernel)
  have hop : operation.handsOutEntries = true := rfl
  rcases reads_failed_entries_iff hop hdone with
    hsilent | ⟨responses, hreads, hiff⟩
  · exact absurd hsilent (by simp [outcome])
  · exact ⟨hdone, responses, hreads, hiff.2 (Or.inl rfl)⟩

/-- The only response reports that there is no such folder, and a folder is handed out. -/
theorem folderAt_hands_out_failed_entry :
    let a : Account := { base := ⟨"https", "dav.example", ⟨"/dav/", none⟩⟩ }
    let s : Session := { server := statusServer "/dav/gone/" "HTTP/1.1 404 Not Found" }
    let call : Call := .propfind "gone/" .zero (Folder.listing none)
    ((Exchange.perform a call s).1.toOption.map fun receipt =>
        receipt.responses.map Response.isOk) = some [false] ∧
      ((Client.folderAt a.base "gone/").run a s).1 = .ok (some { href := "gone/" }) := by
  intro a s call
  exact ⟨by decide +kernel, eq_ok_of_toOption (by decide +kernel)⟩

end Operation
end PimDav
