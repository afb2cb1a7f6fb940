import PimDav.Proofs.Attempts
import PimDav.Proofs.Client.Leads
import PimDav.Proofs.Client.Storing

/-!
# The first fault is the last thing that happens

An operation ends with the first exchange that fails, and hands out its fault.  When no
exchange fails the operation succeeds, but for two cases that are told apart by what
was asked: an item without a payload is not even tried, and a notification whose body
is no markup is refused after it came.
-/

namespace PimDav

open Http (Call Receipt Received Reply)

namespace Plan

variable {α β : Type} {refused : Call → Receipt → Option Fault}

/-- Whether a plan fails of its own accord only where it refuses a receipt, and then with
the fault for which the receipt is refused. -/
def FailsOnlyFor (refused : Call → Receipt → Option Fault) : Plan α → Prop
  | done _ => True
  | fail _ => False
  | note _ next => next.FailsOnlyFor refused
  | ask call _ next => ∀ receipt,
    match refused call receipt with
    | some f => next receipt = .fail f
    | none => (next receipt).FailsOnlyFor refused

theorem failsOnlyFor_andThen
    {p : Plan α}
    {k : α → Plan β}
    (hp : p.FailsOnlyFor refused)
    (hk : ∀ value, (k value).FailsOnlyFor refused) :
    (p.andThen k).FailsOnlyFor refused := by
  induction p with
  | done value => exact hk value
  | fail f => cases hp
  | note entry next ih => exact ih hp
  | ask call complaints next ih =>
    intro receipt
    have hnext := hp receipt
    cases hrefused : refused call receipt with
    | some f =>
      rw [hrefused] at hnext
      dsimp only at hnext ⊢
      rw [hnext, andThen]
    | none =>
      rw [hrefused] at hnext
      exact ih receipt hnext

theorem failsOnlyFor_andThen_done
    {p : Plan α}
    {result : α → β}
    (hp : p.FailsOnlyFor refused) :
    (p.andThen fun value => .done (result value)).FailsOnlyFor refused := by
  apply failsOnlyFor_andThen hp
  intro value
  trivial

theorem failsOnlyFor_ask
    {call : Call}
    {next : Receipt → Plan α}
    (hcall : ∀ receipt, refused call receipt = none)
    (hnext : ∀ receipt, (next receipt).FailsOnlyFor refused)
    (complaints : Fault → List Entry) :
    (ask call complaints next).FailsOnlyFor refused := by
  intro receipt
  rw [hcall]
  exact hnext receipt

/-- A plan of that kind fails exactly when its last attempt does, or got a receipt that is
refused. -/
theorem run_eq_error_iff
    {p : Plan α}
    (hp : p.FailsOnlyFor refused)
    (a : Account)
    (s : Session)
    (f : Fault) :
    (p.run a s).1 = .error f ↔
      ∃ t, (p.attempts a s.server).getLast? = some t ∧
        (t.outcome = .error f ∨
          ∃ receipt, t.outcome = .ok receipt ∧ refused t.call receipt = some f) := by
  induction p generalizing s with
  | done value => simp [run, attempts]
  | fail g => cases hp
  | note entry next ih => exact ih hp (s.note [entry])
  | ask call complaints next ih =>
    have hcall : (Exchange.attempt a call s.server).call = call := rfl
    rcases ask_cases a call complaints next s with
      ⟨g, later, -, houtcome, hrun, htried⟩ | ⟨receipt, later, -, houtcome, hrun, htried⟩
    · rw [hrun, htried]
      simp [houtcome]
    · have hnext := hp receipt
      rw [hrun, htried, List.getLast?_cons]
      cases hrefused : refused call receipt with
      | some g =>
        -- A refused receipt ends the plan, so this attempt is the last one.
        rw [hrefused] at hnext
        dsimp only at hnext
        simp [hnext, run, attempts, houtcome, hcall, hrefused]
      | none =>
        rw [hrefused] at hnext
        rw [ih receipt hnext later]
        cases ((next receipt).attempts a later.server).getLast? with
        | none => simp [houtcome, hcall, hrefused]
        | some last => simp

end Plan

/-! What every part of an operation refuses.  Only bodies that were fetched are ever
looked at in this way, so all other calls are free. -/

section Parts

open Plan (FailsOnlyFor failsOnlyFor_andThen failsOnlyFor_andThen_done failsOnlyFor_ask)

variable {refused : Call → Receipt → Option Fault} {k : Kind}

/-- Whether only receipts of fetched resources are refused. -/
def RefusesOnlyFetched (refused : Call → Receipt → Option Fault) : Prop :=
  ∀ c receipt, (c.method == "GET") = false → refused c receipt = none

variable (hrefused : RefusesOnlyFetched refused)

include hrefused

theorem Plan.failsOnlyFor_call
    {c : Call}
    (hmethod : (c.method == "GET") = false) :
    (Plan.call c).FailsOnlyFor refused := by
  apply failsOnlyFor_ask (fun receipt => hrefused c receipt hmethod)
  intro receipt
  trivial

theorem Plan.failsOnlyFor_callNoting
    {c : Call}
    (hmethod : (c.method == "GET") = false)
    (complaint : Fault → Entry) :
    (Plan.callNoting complaint c).FailsOnlyFor refused := by
  apply failsOnlyFor_ask (fun receipt => hrefused c receipt hmethod)
  intro receipt
  trivial

theorem Discovery.failsOnlyFor_step
    (base : Uri)
    (k : Kind)
    (stage : Stage) :
    (step base k stage).FailsOnlyFor refused := by
  cases stage with
  | start =>
    apply failsOnlyFor_andThen (Plan.failsOnlyFor_call hrefused rfl)
    intro receipt
    cases principals receipt.responses with
    | nil => trivial
    | cons sent more =>
      simp only
      cases more.find? (· != sent) with
      | none => trivial
      | some other => trivial
  | principal href =>
    apply failsOnlyFor_andThen (Plan.failsOnlyFor_call hrefused rfl)
    intro receipt
    cases firstHref? receipt.responses k.vocabulary.homeSet with
    | none => trivial
    | some sent => trivial
  | home href below => trivial
  | failed missing => trivial

theorem Discovery.failsOnlyFor_search
    (base : Uri)
    (k : Kind) :
    (search base k).FailsOnlyFor refused := by
  apply failsOnlyFor_andThen (Discovery.failsOnlyFor_step hrefused base k .start)
  intro stage
  exact failsOnlyFor_andThen_done (Discovery.failsOnlyFor_step hrefused base k stage)

theorem Discovery.failsOnlyFor_notificationHome
    (base : Uri)
    (principal : String) :
    (notificationHome base principal).FailsOnlyFor refused := by
  apply failsOnlyFor_andThen (Plan.failsOnlyFor_call hrefused rfl)
  intro receipt
  cases firstHref? receipt.responses "notification-URL" with
  | none => trivial
  | some sent => trivial

namespace Client

theorem failsOnlyFor_notificationHome
    (base : Uri) :
    (notificationHome base).FailsOnlyFor refused := by
  apply failsOnlyFor_andThen (Discovery.failsOnlyFor_step hrefused base .event .start)
  intro stage
  cases stage with
  | principal href => exact Discovery.failsOnlyFor_notificationHome hrefused base href
  | _ => trivial

theorem failsOnlyFor_listFolders
    (base : Uri)
    (k : Kind) :
    (listFolders base k).FailsOnlyFor refused := by
  apply failsOnlyFor_andThen (Discovery.failsOnlyFor_search hrefused base k)
  intro found
  cases found with
  | none => trivial
  | some found =>
    apply failsOnlyFor_andThen (Plan.failsOnlyFor_callNoting hrefused rfl _)
    intro receipt
    trivial

theorem failsOnlyFor_store
    {item : Item}
    (hpayload : item.payload.getD "" ≠ "") :
    (store item).FailsOnlyFor refused := by
  rw [store, if_neg fun hempty => hpayload ((isEmpty_body_iff item).1 hempty), typed_put]
  exact failsOnlyFor_andThen_done (Plan.failsOnlyFor_call hrefused rfl)

theorem failsOnlyFor_fetch
    (base : Uri)
    (folder : String)
    (k : Kind)
    (hrefs : List String) :
    (fetch base folder k hrefs).FailsOnlyFor refused := by
  unfold fetch
  cases Report.multiget? k ((hrefs.filterMap Text.trimmed?).map base.absolute) with
  | none => trivial
  | some document =>
    exact failsOnlyFor_andThen_done (Plan.failsOnlyFor_callNoting hrefused rfl _)

theorem failsOnlyFor_post
    (href : String)
    (document : Xml.Element) :
    (post href document).FailsOnlyFor refused := by
  have hvalue : Http.Field.isValue
      (Http.Field.ofText "content-type" Sharing.contentType).value = true := by
    decide +kernel
  rw [post, Call.typed, if_pos hvalue]
  exact failsOnlyFor_andThen_done (Plan.failsOnlyFor_call hrefused rfl)

end Client

end Parts

namespace Client

/-- Why the receipt of a fetched resource holds no notification and is no empty body. -/
def refusedBody
    (c : Call)
    (receipt : Receipt) : Option Fault :=
  if c.method == "GET" then
    match documentOf receipt with
    | .error f => some f
    | .ok _ => none
  else none

theorem refusesOnlyFetched_refusedBody : RefusesOnlyFetched refusedBody := by
  intro c receipt hmethod
  rw [refusedBody, hmethod, if_neg Bool.false_ne_true]

theorem documentOf_eq_error_iff
    {receipt : Receipt}
    {f : Fault} :
    documentOf receipt = .error f ↔
      ∃ raw p, receipt.body = .bytes raw ∧ raw.all Text.isBodyBlank = false ∧
        Xml.parse raw = .error p ∧ f = .markup p := by
  rw [documentOf]
  cases receipt.body with
  | document root => simp
  | bytes raw =>
    dsimp only
    constructor
    · intro hfails
      split at hfails
      case isTrue => cases hfails
      case isFalse hblank =>
        cases hparse : Xml.parse raw with
        | ok root =>
          rw [hparse] at hfails
          cases hfails
        | error p =>
          rw [hparse] at hfails
          have hsame := Except.error.inj hfails
          exact ⟨raw, p, rfl, eq_false_of_ne_true hblank, hparse, hsame.symm⟩
    · rintro ⟨_, p, hraw, hblank, hparse, rfl⟩
      cases hraw
      rw [hblank, if_neg Bool.false_ne_true, hparse]

theorem failsOnlyFor_notificationAt
    (base : Uri)
    (href : String) :
    (notificationAt base href).FailsOnlyFor refusedBody := by
  intro receipt
  cases hdocument : documentOf receipt with
  | error f => simp [refusedBody, Call.bare, hdocument, Plan.ofExcept, Plan.andThen]
  | ok root =>
    simp [refusedBody, Call.bare, hdocument, Plan.ofExcept, Plan.andThen, Plan.FailsOnlyFor]

theorem failsOnlyFor_fetchNotifications
    (base : Uri)
    (listed : List Notification) :
    (fetchNotifications base listed).FailsOnlyFor refusedBody := by
  induction listed with
  | nil => trivial
  | cons n rest ih =>
    apply Plan.failsOnlyFor_andThen (failsOnlyFor_notificationAt base n.href)
    intro fetched
    exact Plan.failsOnlyFor_andThen_done ih

theorem failsOnlyFor_listNotifications
    (base : Uri)
    (topics : List Topic) :
    (listNotifications base topics).FailsOnlyFor refusedBody := by
  have hrefused := refusesOnlyFetched_refusedBody
  apply Plan.failsOnlyFor_andThen (failsOnlyFor_notificationHome hrefused base)
  intro home
  cases home with
  | none => trivial
  | some home =>
    apply Plan.failsOnlyFor_andThen (Plan.failsOnlyFor_callNoting hrefused rfl _)
    intro receipt
    apply Plan.failsOnlyFor_andThen (failsOnlyFor_fetchNotifications base _)
    intro notifications
    trivial

end Client

namespace Operation

open Plan (failsOnlyFor_andThen_done)

/-- The receipts that an operation refuses. -/
def refused : Operation → Call → Receipt → Option Fault
  | notificationAt _ => Client.refusedBody
  | listNotifications _ => Client.refusedBody
  | _ => fun _ _ => none

theorem failsOnlyFor_plan
    {operation : Operation}
    (hsomething : ∀ item, operation = .store item → item.payload.getD "" ≠ "")
    (base : Uri) :
    (operation.plan base).FailsOnlyFor operation.refused := by
  have hfree : RefusesOnlyFetched fun _ _ => none := by
    intro _ _ _
    rfl
  cases operation with
  | discover k => exact failsOnlyFor_andThen_done (Discovery.failsOnlyFor_search hfree base k)
  | checkHealth =>
    apply failsOnlyFor_andThen_done
    exact failsOnlyFor_andThen_done (Discovery.failsOnlyFor_search hfree base .event)
  | listFolders k => exact failsOnlyFor_andThen_done (Client.failsOnlyFor_listFolders hfree base k)
  | store item =>
    exact failsOnlyFor_andThen_done (Client.failsOnlyFor_store hfree (hsomething item rfl))
  | search folder k component =>
    apply failsOnlyFor_andThen_done
    exact failsOnlyFor_andThen_done (Plan.failsOnlyFor_callNoting hfree rfl _)
  | fetch folder k hrefs =>
    exact failsOnlyFor_andThen_done (Client.failsOnlyFor_fetch hfree base folder k hrefs)
  | notificationHome =>
    exact failsOnlyFor_andThen_done (Client.failsOnlyFor_notificationHome hfree base)
  | listNotifications topics =>
    exact failsOnlyFor_andThen_done (Client.failsOnlyFor_listNotifications base topics)
  | notificationAt href =>
    exact failsOnlyFor_andThen_done (Client.failsOnlyFor_notificationAt base href)
  | answerInvitation href reply =>
    exact failsOnlyFor_andThen_done (Client.failsOnlyFor_post hfree _ _)
  | share s => exact failsOnlyFor_andThen_done (Client.failsOnlyFor_post hfree _ _)
  | notificationHomeOf principal =>
    exact failsOnlyFor_andThen_done (Discovery.failsOnlyFor_notificationHome hfree base principal)
  | call c =>
    apply failsOnlyFor_andThen_done
    intro receipt
    trivial
  | _ =>
    -- the operations that make one call and look at nothing but its receipt
    apply failsOnlyFor_andThen_done
    exact failsOnlyFor_andThen_done (Plan.failsOnlyFor_call hfree rfl)

/-- Whether an operation fetches notifications. -/
def fetchesNotifications : Operation → Bool
  | notificationAt _ => true
  | listNotifications _ => true
  | _ => false

/-- When an operation fails although none of its exchanges did. -/
inductive Refuses : Operation → List Attempt → Fault → Prop
  | emptyItem
      {item : Item}
      (hempty : item.payload.getD "" = "") :
      Refuses (.store item) [] (.emptyItem item.href)
  | brokenBody
      {operation : Operation}
      {earlier : List Attempt}
      {t : Attempt}
      {receipt : Receipt}
      {raw : Bytes}
      {p : Xml.Problem}
      (hfetches : operation.fetchesNotifications = true)
      (hmethod : t.call.method = "GET")
      (houtcome : t.outcome = .ok receipt)
      (hbody : receipt.body = .bytes raw)
      (hdeclared : Xml.isDeclared raw = false)
      (hblank : raw.all Text.isBodyBlank = false)
      (hparse : Xml.parse raw = .error p) :
      Refuses operation (earlier ++ [t]) (.markup p)

theorem refused_eq_some_iff
    {operation : Operation}
    {c : Call}
    {receipt : Receipt}
    {f : Fault} :
    operation.refused c receipt = some f ↔
      operation.fetchesNotifications = true ∧ c.method = "GET" ∧
        Client.documentOf receipt = .error f := by
  have hbody : Client.refusedBody c receipt = some f ↔
      c.method = "GET" ∧ Client.documentOf receipt = .error f := by
    unfold Client.refusedBody
    cases hdocument : Client.documentOf receipt <;> simp
  cases operation with
  | notificationAt href => simp [refused, fetchesNotifications, hbody]
  | listNotifications topics => simp [refused, fetchesNotifications, hbody]
  | _ => simp [refused, fetchesNotifications]

/-- Only a body without a declaration is handed out as it came. -/
theorem isDeclared_of_bytes
    {a : Account}
    {t : Attempt}
    {receipt : Receipt}
    {raw : Bytes}
    (hexchange : t.IsExchange a)
    (houtcome : t.outcome = .ok receipt)
    (hbody : receipt.body = .bytes raw) :
    Xml.isDeclared raw = false := by
  cases hresolve : a.base.resolve t.call.href with
  | error f =>
    obtain ⟨-, -, hfailed⟩ := hexchange.unsent f hresolve
    rw [houtcome] at hfailed
    cases hfailed
  | ok uri =>
    obtain ⟨-, reply, -, hreply⟩ := hexchange.sent uri hresolve
    obtain ⟨_, _, bytes, -, -, -, -, hreceived, -, -⟩ :=
      Exchange.outcome_eq_ok (hreply.symm.trans houtcome)
    rw [hbody, Exchange.receive] at hreceived
    split at hreceived
    case isTrue => cases hparse : Xml.parse bytes <;> simp [hparse] at hreceived
    case isFalse hdeclared =>
      cases hreceived
      exact eq_false_of_ne_true hdeclared

/-- When none of its exchanges fails, an operation fails exactly for a reason of its own. -/
theorem run_eq_error_iff_refuses
    {operation : Operation}
    {a : Account}
    {s : Session}
    (hfine : ∀ t ∈ (operation.plan a.base).attempts a s.server,
      ∃ receipt, t.outcome = .ok receipt)
    (f : Fault) :
    ((operation.plan a.base).run a s).1 = .error f ↔
      operation.Refuses ((operation.plan a.base).attempts a s.server) f := by
  by_cases hnothing : ∃ item, operation = .store item ∧ item.payload.getD "" = ""
  · obtain ⟨item, rfl, hempty⟩ := hnothing
    have hplan : (store item).plan a.base = .fail (.emptyItem item.href) := by
      rw [plan, Client.store_of_empty hempty]
      rfl
    rw [hplan, Plan.run, Plan.attempts]
    constructor
    · rintro ⟨⟩
      exact .emptyItem hempty
    · generalize hnone : ([] : List Attempt) = tried
      intro hrefuses
      cases hrefuses with
      | emptyItem _ => rfl
      | brokenBody hfetches => cases hfetches
  · have hsomething : ∀ item, operation = .store item → item.payload.getD "" ≠ "" := by
      intro item hstore hempty
      exact hnothing ⟨item, hstore, hempty⟩
    rw [Plan.run_eq_error_iff (failsOnlyFor_plan hsomething a.base)]
    constructor
    · rintro ⟨t, hlast, hend⟩
      obtain ⟨earlier, htried⟩ := List.getLast?_eq_some_iff.1 hlast
      have ht : t ∈ (operation.plan a.base).attempts a s.server := List.mem_of_getLast? hlast
      obtain ⟨receipt, houtcome⟩ := hfine t ht
      rcases hend with hfailed | ⟨_, hsame, hrefused⟩
      · rw [houtcome] at hfailed
        cases hfailed
      · obtain rfl := Except.ok.inj (houtcome.symm.trans hsame)
        obtain ⟨hfetches, hmethod, hdocument⟩ := refused_eq_some_iff.1 hrefused
        obtain ⟨raw, p, hbody, hblank, hparse, rfl⟩ :=
          Client.documentOf_eq_error_iff.1 hdocument
        have hdeclared := isDeclared_of_bytes (Plan.isExchange_of_mem ht) houtcome hbody
        rw [htried]
        exact .brokenBody hfetches hmethod houtcome hbody hdeclared hblank hparse
    · intro hrefuses
      generalize htried : (operation.plan a.base).attempts a s.server = tried at hrefuses ⊢
      cases hrefuses with
      | emptyItem hempty => exact absurd hempty (hsomething _ rfl)
      | brokenBody hfetches hmethod houtcome hbody hdeclared hblank hparse =>
        refine ⟨_, List.getLast?_concat, Or.inr ⟨_, houtcome, ?_⟩⟩
        exact refused_eq_some_iff.2 ⟨hfetches, hmethod,
          Client.documentOf_eq_error_iff.2 ⟨_, _, hbody, hblank, hparse, rfl⟩⟩

/-- Whatever the server answers, the first exchange of an operation that fails is its last
one, and the operation fails with the same fault.  When no exchange fails the operation
succeeds, unless it has a reason of its own to refuse.  Every exchange makes one request,
or none when its href has no address, and the requests use up the replies of the server
one after another, each of them once. -/
theorem ends_with_first_fault
    (operation : Operation)
    (a : Account)
    (s : Session) :
    let tried := (operation.plan a.base).attempts a s.server
    let requests := tried.flatMap fun t => Exchange.requests a t.call
    let done := (operation.plan a.base).run a s
    (∀ earlier t later f, tried = earlier ++ t :: later → t.outcome = .error f →
      later = [] ∧ done.1 = .error f) ∧
    ((∀ t ∈ tried, ∃ receipt, t.outcome = .ok receipt) →
      (∀ f, operation.Refuses tried f → done.1 = .error f) ∧
        ((¬ ∃ f, operation.Refuses tried f) → ∃ result, done.1 = .ok result)) ∧
    (∀ t ∈ tried, t.IsExchange a) ∧
    (s.server.reachable = true →
      tried.filterMap (·.reply) =
          s.server.replies.take requests.length ++
            List.replicate (requests.length - s.server.replies.length)
              (.answer Server.notFound) ∧
        done.2.server =
          { s.server with
            replies := s.server.replies.drop requests.length
            received := s.server.received ++ requests }) ∧
    (s.server.reachable = false →
      tried.filterMap (·.reply) = List.replicate requests.length .noAnswer ∧
        done.2.server = s.server) := by
  intro tried requests done
  have hserved : s.server.serveAll requests = (tried.filterMap (·.reply), done.2.server) :=
    (Plan.leadTo_run a (operation.plan a.base) s).served
  refine ⟨?_, ?_, ?_, ?_, ?_⟩
  · intro earlier t later f htried hf
    exact Plan.eq_nil_of_outcome_error htried hf
  · intro hfine
    constructor
    · intro f hrefuses
      exact (run_eq_error_iff_refuses hfine f).2 hrefuses
    · intro hnone
      cases hdone : done.1 with
      | ok result => exact ⟨result, rfl⟩
      | error f => exact absurd ⟨f, (run_eq_error_iff_refuses hfine f).1 hdone⟩ hnone
  · intro t ht
    exact Plan.isExchange_of_mem ht
  · intro hreachable
    rw [Server.serveAll_reachable hreachable] at hserved
    exact ⟨(congrArg Prod.fst hserved).symm, (congrArg Prod.snd hserved).symm⟩
  · intro hreachable
    rw [Server.serveAll_unreachable hreachable] at hserved
    exact ⟨(congrArg Prod.fst hserved).symm, (congrArg Prod.snd hserved).symm⟩

/-- A listing of folders ends when the principal is refused its home, and a notification
without a declaration is refused when it is no markup.  The next reply stays unused both
times. -/
theorem ends_with_first_fault_unused :
    let a : Account := { base := ⟨"https", "dav.example", ⟨"/dav/", none⟩⟩ }
    let pieces := ["<?xml?><multistatus><response><propstat><prop><current-user-principal>",
      "<href>/dav/p/</href></current-user-principal></prop></propstat></response></multistatus>"]
    let principal : Reply := .answer { code := 207, body := .plain (pieces.flatMap Utf8.encode) }
    let broken : Reply := .answer { body := .plain (Utf8.encode "<notification>") }
    let unused : Reply := .answer {}
    let refused : Session :=
      { server := { replies := [principal, .answer { code := 503 }, unused] } }
    let fetched : Session := { server := { replies := [broken, unused] } }
    (∃ f, (((listFolders .event).plan a.base).run a refused).1 = .error f) ∧
      (∃ p, (((notificationAt "n/1").plan a.base).run a fetched).1 = .error (.markup p)) ∧
      (((notificationAt "n/1").plan a.base).run a fetched).2.server.replies = [unused] := by
  intro a pieces principal broken unused refused fetched
  constructor
  · have houtcomes : (((listFolders .event).plan a.base).attempts a refused.server).map
        (·.outcome.toOption.isSome) = [true, false] := by
      decide +kernel
    obtain ⟨first, rest, htried, -, hrest⟩ := List.map_eq_cons_iff.1 houtcomes
    obtain ⟨t, later, rfl, hfailed, -⟩ := List.map_eq_cons_iff.1 hrest
    obtain ⟨hlast, -⟩ := ends_with_first_fault (listFolders .event) a refused
    cases hf : t.outcome with
    | ok receipt =>
      rw [hf] at hfailed
      cases hfailed
    | error f => exact ⟨f, (hlast [first] t later f htried hf).2⟩
  · obtain ⟨houtcomes, hcount, hfails⟩ :
        (((notificationAt "n/1").plan a.base).attempts a fetched.server).map
            (·.outcome.toOption.isSome) = [true] ∧
          ((((notificationAt "n/1").plan a.base).attempts a fetched.server).flatMap
            fun t => Exchange.requests a t.call).length = 1 ∧
          (((notificationAt "n/1").plan a.base).run a fetched).1.toOption.isSome = false := by
      decide +kernel
    obtain ⟨-, hfine, -, hreached, -⟩ := ends_with_first_fault (notificationAt "n/1") a fetched
    have hserver := (hreached rfl).2
    rw [hcount] at hserver
    refine ⟨?_, congrArg Server.replies hserver⟩
    generalize ((notificationAt "n/1").plan a.base).attempts a fetched.server = tried
      at houtcomes hfine
    obtain ⟨t, later, rfl, hok, hnil⟩ := List.map_eq_cons_iff.1 houtcomes
    obtain rfl := List.map_eq_nil_iff.1 hnil
    have hreceipt : ∀ u ∈ [t], ∃ receipt, u.outcome = .ok receipt := by
      intro u hu
      obtain rfl := List.mem_singleton.1 hu
      cases houtcome : u.outcome with
      | ok receipt => exact ⟨receipt, rfl⟩
      | error f =>
        rw [houtcome] at hok
        cases hok
    obtain ⟨hrefuses, hsucceeds⟩ := hfine hreceipt
    rcases Classical.em (∃ f, (notificationAt "n/1").Refuses [t] f) with ⟨f, hf⟩ | hnone
    · have hfault := hrefuses f hf
      generalize [t] = tried at hf
      cases hf
      exact ⟨_, hfault⟩
    · obtain ⟨result, hresult⟩ := hsucceeds hnone
      rw [hresult] at hfails
      cases hfails

end Operation
end PimDav
