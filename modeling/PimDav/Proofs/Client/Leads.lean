import PimDav.Operation
import PimDav.Proofs.Attempts
import PimDav.Proofs.Uri.Server

/-!
# Where a server can lead a client

Some operations need no href of the caller: the first call goes to a place that
is known beforehand, and all later ones follow hrefs that the server sent.  The
credentials go with every one of them.  So it is decided by these hrefs alone
whether the credentials stay on the server of the base.
-/

namespace PimDav

open Http (Call Receipt Request)

/-- An href of the server that is followed. -/
inductive Lead where
  /-- The root is taken away first. -/
  | kept (sent : String)
  /-- The href is asked for as it was sent. -/
  | untouched (sent : String)
  deriving DecidableEq, Repr

namespace Lead

/-- The href that is asked for. -/
def href (base : Uri) : Lead → String
  | kept sent => base.relative sent
  | untouched sent => sent

/-- Whether a lead goes to another server: as it is, or because the root stands in
front of an address that does. -/
def LeadsAway (base : Uri) : Lead → Prop
  | kept sent => ∃ rest, Uri.hrefPath sent = base.root ++ rest ∧ base.LeavesServer rest
  | untouched sent => base.LeavesServer sent

theorem leavesServer_href_iff
    (base : Uri)
    (lead : Lead) :
    base.LeavesServer (lead.href base) ↔ lead.LeadsAway base := by
  cases lead with
  | kept sent => exact Uri.leavesServer_relative_iff base sent
  | untouched sent => exact Iff.rfl

end Lead

namespace Discovery

/-! What the receipts of a search say. -/

def principal (receipt : Receipt) : Option String :=
  (principals receipt.responses).head?

def homeSet
    (k : Kind)
    (receipt : Receipt) : Option String :=
  firstHref? receipt.responses k.vocabulary.homeSet

def notificationUrl (receipt : Receipt) : Option String :=
  firstHref? receipt.responses "notification-URL"

end Discovery

namespace Operation

/-- Whether the caller gives no href. -/
def needsNoHref : Operation → Bool
  | discover _ => true
  | checkHealth => true
  | capabilities => true
  | listFolders _ => true
  | notificationHome => true
  | listNotifications _ => true
  | _ => false

/-- The place of the first call. -/
def entrance : Operation → String
  | discover k => k.vocabulary.rootSegment ++ "/"
  | listFolders k => k.vocabulary.rootSegment ++ "/"
  | checkHealth => Kind.event.vocabulary.rootSegment ++ "/"
  | notificationHome => Kind.event.vocabulary.rootSegment ++ "/"
  | listNotifications _ => Kind.event.vocabulary.rootSegment ++ "/"
  | _ => ""

/-- What a receipt says, if the call with this number has one. -/
def said
    (calls : List Asked)
    (n : Nat)
    (read : Receipt → Option String) : List Lead :=
  ((calls[n]?.bind Asked.receipt).bind read).toList.map .kept

theorem said_zero
    {read : Receipt → Option String}
    {receipt : Receipt}
    {sent : String}
    (hread : read receipt = some sent)
    (call : Call)
    (later : List Asked) :
    said (⟨call, some receipt⟩ :: later) 0 read = [.kept sent] := by
  simp [said, hread]

theorem said_one
    {read : Receipt → Option String}
    {receipt : Receipt}
    {sent : String}
    (hread : read receipt = some sent)
    (first : Asked)
    (call : Call)
    (later : List Asked) :
    said (first :: ⟨call, some receipt⟩ :: later) 1 read = [.kept sent] := by
  simp [said, hread]

/-- The notifications of a listing, as far as they were asked for after the three calls
that lead to it. -/
def fetched
    (topics : List Topic)
    (calls : List Asked) : List Lead :=
  let listed := ((calls[2]?.bind Asked.receipt).map fun receipt =>
    Client.wanted topics receipt.responses).getD []
  (listed.take (calls.length - 3)).map fun n => .untouched n.href

theorem fetched_listing
    (topics : List Topic)
    (first second : Asked)
    (call : Call)
    (listing : Receipt)
    (later : List Asked) :
    fetched topics (first :: second :: ⟨call, some listing⟩ :: later) =
      ((Client.wanted topics listing.responses).take later.length).map fun n =>
        .untouched n.href := by
  rfl

/-- The leads in the receipts of a trace, in the order in which they are followed: the
principal, what was asked of it, and the notifications. -/
def leads
    (operation : Operation)
    (calls : List Asked) : List Lead :=
  match operation with
  | discover _ => said calls 0 Discovery.principal
  | checkHealth => said calls 0 Discovery.principal
  | notificationHome => said calls 0 Discovery.principal
  | listFolders k => said calls 0 Discovery.principal ++ said calls 1 (Discovery.homeSet k)
  | listNotifications topics =>
    said calls 0 Discovery.principal ++
      (said calls 1 Discovery.notificationUrl ++ fetched topics calls)
  | _ => []

end Operation

namespace Plan

variable {β : Type}

/-- A call whose receipt may say where to go on. -/
def follow
    (call : Call)
    (read : Receipt → Option String)
    (goOn : String → Plan β)
    (giveUp : Plan β) : Plan β :=
  .ask call (fun _ => []) fun receipt =>
    match read receipt with
    | some sent => goOn sent
    | none => giveUp

/-- The call fails, or its receipt says nothing, or the plan goes on from there. -/
theorem trace_follow_cases
    (a : Account)
    (call : Call)
    (read : Receipt → Option String)
    (goOn : String → Plan β)
    {giveUp : Plan β}
    (hgiveUp : ∀ v, giveUp.trace a v = [])
    (v : Server) :
    (follow call read goOn giveUp).trace a v = [⟨call, none⟩] ∨
      (∃ receipt, read receipt = none ∧
        (follow call read goOn giveUp).trace a v = [⟨call, some receipt⟩]) ∨
      ∃ receipt sent later, read receipt = some sent ∧
        (follow call read goOn giveUp).trace a v =
          ⟨call, some receipt⟩ :: (goOn sent).trace a later := by
  unfold follow
  rcases trace_ask_cases a call _ _ v with hfailed | ⟨receipt, later, hwent⟩
  · exact Or.inl hfailed
  · cases hread : read receipt with
    | none =>
      refine Or.inr (Or.inl ⟨receipt, hread, ?_⟩)
      rw [hwent, hread, hgiveUp]
    | some sent =>
      refine Or.inr (Or.inr ⟨receipt, sent, later, hread, ?_⟩)
      rw [hwent, hread]

end Plan

/-! What the parts of an operation ask, without what they note. -/

namespace Discovery

variable {β : Type}

/-- The first call of every search. -/
def firstCall (k : Kind) : Call :=
  .propfind (k.vocabulary.rootSegment ++ "/") .one principalQuestion

theorem attempts_findPrincipal
    (a : Account)
    (k : Kind)
    (goOn : Stage → Plan β)
    (v : Server) :
    ((findPrincipal a.base k).andThen goOn).attempts a v =
      (Plan.follow (firstCall k) principal
        (fun sent => goOn (.principal (a.base.relative sent)))
        (goOn (.failed .principal))).attempts a v := by
  apply Plan.attempts_ask_congr
  intro receipt v
  unfold principal
  simp only [Plan.andThen]
  cases principals receipt.responses with
  | nil => rfl
  | cons sent more =>
    dsimp only [List.head?_cons]
    cases more.find? (· != sent) with
    | none => rfl
    | some other => rfl

theorem attempts_findHome
    (a : Account)
    (k : Kind)
    (href : String)
    (goOn : Stage → Plan β)
    (v : Server) :
    ((findHome a.base k href).andThen goOn).attempts a v =
      (Plan.follow (.propfind href .zero (homeQuestion k)) (homeSet k)
        (fun sent => goOn (.home href (a.base.relative sent)))
        (goOn (.failed .homeSet))).attempts a v := by
  apply Plan.attempts_ask_congr
  intro receipt v
  unfold homeSet
  simp only [Plan.andThen]
  cases firstHref? receipt.responses k.vocabulary.homeSet with
  | none => rfl
  | some sent => rfl

theorem attempts_notificationHome
    (a : Account)
    (href : String)
    (goOn : Option String → Plan β)
    (v : Server) :
    ((notificationHome a.base href).andThen goOn).attempts a v =
      (Plan.follow (.propfind href .zero notificationQuestion) notificationUrl
        (fun sent => goOn (some (a.base.relative sent))) (goOn none)).attempts a v := by
  apply Plan.attempts_ask_congr
  intro receipt v
  unfold notificationUrl
  simp only [Plan.andThen]
  cases firstHref? receipt.responses "notification-URL" with
  | none => rfl
  | some sent => rfl

/-- A search asks for the principal and then the principal for its home. -/
theorem attempts_search
    (a : Account)
    (k : Kind)
    (goOn : Option Found → Plan β)
    (v : Server) :
    ((search a.base k).andThen goOn).attempts a v =
      (Plan.follow (firstCall k) principal
        (fun sent =>
          .follow (.propfind (a.base.relative sent) .zero (homeQuestion k)) (homeSet k)
            (fun home => goOn (some ⟨a.base.relative sent, a.base.relative home⟩)) (goOn none))
        (goOn none)).attempts a v := by
  have hsearch : (search a.base k).andThen goOn =
      (findPrincipal a.base k).andThen fun stage =>
        (step a.base k stage).andThen fun stage => goOn stage.found? := by
    rw [search, Plan.bind_eq, Plan.andThen_assoc]
    congr 1
    funext stage
    rw [Plan.bind_eq, Plan.andThen_assoc]
    rfl
  rw [hsearch, attempts_findPrincipal]
  apply Plan.attempts_ask_congr
  intro receipt v
  cases principal receipt with
  | none => rfl
  | some sent => exact attempts_findHome a k _ _ v

end Discovery

namespace Client

variable {β : Type}

theorem attempts_notificationHome
    (a : Account)
    (goOn : Option String → Plan β)
    (v : Server) :
    ((notificationHome a.base).andThen goOn).attempts a v =
      (Plan.follow (Discovery.firstCall .event) Discovery.principal
        (fun sent =>
          .follow (.propfind (a.base.relative sent) .zero Discovery.notificationQuestion)
            Discovery.notificationUrl
            (fun home => goOn (some (a.base.relative home))) (goOn none))
        (goOn none)).attempts a v := by
  rw [notificationHome, Plan.bind_eq, Plan.andThen_assoc, Discovery.step,
    Discovery.attempts_findPrincipal]
  apply Plan.attempts_ask_congr
  intro receipt v
  cases Discovery.principal receipt with
  | none => rfl
  | some sent => exact Discovery.attempts_notificationHome a _ goOn v

theorem fetchNotifications_cons_andThen
    (base : Uri)
    (n : Notification)
    (rest : List Notification)
    (goOn : List Notification → Plan β) :
    (fetchNotifications base (n :: rest)).andThen goOn =
      .ask (.bare "GET" n.href) (fun _ => []) fun receipt =>
        match documentOf receipt with
        | .ok root =>
          (fetchNotifications base rest).andThen fun later =>
            let fetched := root.bind (notificationIn? · (base.relative n.href))
            goOn ((fetched.map fun m => { m with topic := m.topic.or n.topic }).toList ++ later)
        | .error f => .fail f := by
  rw [fetchNotifications, Plan.bind_eq, Plan.andThen_assoc, notificationAt, Plan.bind_eq,
    Plan.andThen_assoc]
  simp only [Plan.call, Plan.andThen, Plan.bind_eq, Plan.pure_eq, Plan.andThen_assoc]
  congr 1
  funext receipt
  cases documentOf receipt with
  | error f => rfl
  | ok root => rfl

/-- The notifications are asked for in their order until one of them fails. -/
theorem hrefs_fetchNotifications
    (a : Account)
    {goOn : List Notification → Plan β}
    (listed : List Notification)
    (v : Server)
    (hend : ∀ found v, (goOn found).trace a v = []) :
    let calls := ((fetchNotifications a.base listed).andThen goOn).trace a v
    calls.map (·.call.href) = (listed.take calls.length).map (·.href) := by
  dsimp only
  induction listed generalizing goOn v with
  | nil => rw [fetchNotifications, Plan.andThen, hend, List.take_nil, List.map_nil, List.map_nil]
  | cons n rest ih =>
    rw [fetchNotifications_cons_andThen]
    rcases Plan.trace_ask_cases a _ _ _ v with htrace | ⟨receipt, later, htrace⟩
    · rw [htrace]
      rfl
    · rw [htrace, List.length_cons, List.take_succ_cons, List.map_cons, List.map_cons]
      cases documentOf receipt with
      | error f => rfl
      | ok root =>
        rw [ih]
        · rfl
        · intro found v
          exact hend _ v

end Client

namespace Operation

open Discovery (firstCall homeSet notificationUrl principal)

variable {β : Type} {a : Account}

/-- A plan that follows two leads asks for the first one and, from the second one on, for
whatever else the receipts offer. -/
theorem hrefs_follow_twice
    {first : Call}
    {second : String → Call}
    {read readNext : Receipt → Option String}
    {goOn : String → String → Plan β}
    {giveUp : Plan β}
    (more : List Asked → List Lead)
    (hsecond : ∀ sent, (second sent).href = a.base.relative sent)
    (hgiveUp : ∀ v, giveUp.trace a v = [])
    (hstop : ∀ calls, said calls 1 readNext = [] → calls[2]? = none → more calls = [])
    (hgoOn : ∀ earlier receipt sent home v, readNext receipt = some home →
      ((goOn sent home).trace a v).map (·.call.href) =
        (more (earlier :: ⟨second sent, some receipt⟩ :: (goOn sent home).trace a v)).map
          (·.href a.base))
    (v : Server) :
    let calls := (Plan.follow first read
      (fun sent => .follow (second sent) readNext (goOn sent) giveUp) giveUp).trace a v
    calls.map (·.call.href) =
      first.href :: (said calls 0 read ++ more calls).map (·.href a.base) := by
  dsimp only
  rcases Plan.trace_follow_cases a first read _ hgiveUp v with
    htrace | ⟨receipt, hread, htrace⟩ | ⟨receipt, sent, later, hread, htrace⟩
  · rw [htrace, hstop _ rfl rfl]
    rfl
  · rw [htrace, hstop _ rfl rfl]
    simp [said, hread]
  · rw [htrace, said_zero hread]
    rcases Plan.trace_follow_cases a (second sent) readNext (goOn sent) hgiveUp later with
      hrest | ⟨receiptNext, hnext, hrest⟩ | ⟨receiptNext, home, last, hnext, hrest⟩
    · rw [hrest, hstop _ rfl rfl]
      simp [hsecond, Lead.href]
    · have hnothing : said [⟨first, some receipt⟩, ⟨second sent, some receiptNext⟩] 1 readNext =
          [] := by
        simp [said, hnext]
      rw [hrest, hstop _ hnothing rfl]
      simp [hsecond, Lead.href]
    · have hlater := hgoOn ⟨first, some receipt⟩ receiptNext sent home last hnext
      rw [hrest, List.map_cons, List.map_cons, hlater]
      simp [hsecond, Lead.href]

theorem hrefs_listFolders
    (a : Account)
    (k : Kind)
    (v : Server) :
    let calls := ((listFolders k).plan a.base).trace a v
    calls.map (·.call.href) =
      (firstCall k).href :: ((listFolders k).leads calls).map (·.href a.base) := by
  dsimp only
  rw [plan, Client.listFolders, Plan.bind_eq, Plan.bind_eq, Plan.andThen_assoc,
    Plan.trace, Discovery.attempts_search, ← Plan.trace]
  apply hrefs_follow_twice fun calls => said calls 1 (homeSet k)
  · intro sent
    rfl
  · intro v
    rfl
  · intro calls hnothing _
    exact hnothing
  · intro earlier receipt sent home v hhome
    simp only [Plan.callNoting, Plan.bind_eq, Plan.andThen]
    rcases Plan.trace_ask_cases a _ _ _ v with htrace | ⟨listing, later, htrace⟩
    · rw [htrace, said_one hhome]
      rfl
    · rw [htrace, said_one hhome]
      rfl

theorem hrefs_listNotifications
    (a : Account)
    (topics : List Topic)
    (v : Server) :
    let calls := ((listNotifications topics).plan a.base).trace a v
    calls.map (·.call.href) =
      (firstCall .event).href ::
        ((listNotifications topics).leads calls).map (·.href a.base) := by
  dsimp only
  rw [plan, Client.listNotifications, Plan.bind_eq, Plan.bind_eq, Plan.andThen_assoc,
    Plan.trace, Client.attempts_notificationHome, ← Plan.trace]
  apply hrefs_follow_twice fun calls => said calls 1 notificationUrl ++ fetched topics calls
  · intro sent
    rfl
  · intro v
    rfl
  · intro calls hnothing hshort
    simp [hnothing, fetched, hshort]
  · intro earlier receipt sent home v hhome
    simp only [Plan.callNoting, Plan.bind_eq, Plan.andThen, Plan.andThen_assoc]
    rcases Plan.trace_ask_cases a _ _ _ v with htrace | ⟨listing, later, htrace⟩
    · rw [htrace, said_one hhome]
      rfl
    · rw [htrace, List.map_cons, Client.hrefs_fetchNotifications, said_one hhome,
        fetched_listing, List.map_append, List.map_map]
      · rfl
      · intro found v
        rfl

/-- The calls of an operation that needs no href go to its entrance first and then to its
leads, one after another. -/
theorem hrefs_trace
    {operation : Operation}
    (hnone : operation.needsNoHref = true)
    (a : Account)
    (v : Server) :
    let calls := (operation.plan a.base).trace a v
    calls.map (·.call.href) =
      operation.entrance :: (operation.leads calls).map (·.href a.base) := by
  dsimp only
  cases operation with
  | discover k =>
    rw [plan, Plan.bind_eq, Plan.trace, Discovery.attempts_search, ← Plan.trace, leads,
      ← List.append_nil (said _ _ _)]
    exact hrefs_follow_twice (fun _ => []) (fun _ => rfl) (fun _ => rfl) (fun _ _ _ => rfl)
      (fun _ _ _ _ _ _ => rfl) v
  | checkHealth =>
    rw [plan, Client.isHealthy, Plan.bind_eq, Plan.bind_eq, Plan.andThen_assoc,
      Plan.trace, Discovery.attempts_search, ← Plan.trace, leads,
      ← List.append_nil (said _ _ _)]
    exact hrefs_follow_twice (fun _ => []) (fun _ => rfl) (fun _ => rfl) (fun _ _ _ => rfl)
      (fun _ _ _ _ _ _ => rfl) v
  | capabilities =>
    simp only [plan, Client.capabilities, Plan.bind_eq, Plan.pure_eq, Plan.call, Plan.andThen]
    rcases Plan.trace_ask_cases a _ _ _ v with htrace | ⟨receipt, later, htrace⟩
    · rw [htrace]
      rfl
    · rw [htrace]
      rfl
  | listFolders k => exact hrefs_listFolders a k v
  | notificationHome =>
    rw [plan, Plan.bind_eq, Plan.trace, Client.attempts_notificationHome, ← Plan.trace, leads,
      ← List.append_nil (said _ _ _)]
    exact hrefs_follow_twice (fun _ => []) (fun _ => rfl) (fun _ => rfl) (fun _ _ _ => rfl)
      (fun _ _ _ _ _ _ => rfl) v
  | listNotifications topics => exact hrefs_listNotifications a topics v
  | _ => cases hnone

theorem hrefs_attempts
    {operation : Operation}
    (hnone : operation.needsNoHref = true)
    (a : Account)
    (v : Server) :
    ((operation.plan a.base).attempts a v).map (·.call.href) =
      operation.entrance ::
        (operation.leads ((operation.plan a.base).trace a v)).map (·.href a.base) := by
  have htrace := hrefs_trace hnone a v
  dsimp only at htrace
  rw [← htrace, Plan.trace, List.map_map]
  rfl

end Operation
end PimDav
