import PimDav.Proofs.Conduct

/-!
# Two runs side by side

Two clients may differ in what is not looked at: in their credentials, in whether they dump
their exchanges, in what they were used for before.  An onlooker sees something of each
request and some of the entries of the log.  When two onlookers cannot tell two accounts
apart by one request or one dump, they cannot tell apart any work of the two either: the
same results are handed out, and the same is seen on the way.
-/

namespace PimDav

open Http (Call Headers Request)

/-- What is seen of a run. -/
structure Onlooker (ρ : Type) where
  request : Request → ρ
  /-- Whether an entry of the log is seen. -/
  shows : Entry → Bool := fun _ => true

/-- Nothing is left out. -/
def Onlooker.ofAll : Onlooker Request :=
  ⟨id, fun _ => true⟩

section Alike

variable {ρ : Type}

/-- Two accounts, each with its onlooker, that look the same. -/
structure Account.Alike
    (v w : Onlooker ρ)
    (a b : Account) : Prop where
  base : a.base = b.base
  timeout : a.timeout = b.timeout
  request : ∀ (c : Call) (uri : Uri),
    v.request (Exchange.request a c uri) = w.request (Exchange.request b c uri)
  offWire : ∀ entry : Entry, entry.IsOffWire → v.shows entry = w.shows entry
  /-- Entries about the wire are written only by an account that dumps. -/
  wire : ∀ entry : Entry, ¬ entry.IsOffWire →
    (a.dumps && v.shows entry) = (b.dumps && w.shows entry)

/-- Two sessions, each with its onlooker, that look the same. The headers that they remember
may be left aside. -/
structure Session.Alike
    (v w : Onlooker ρ)
    (withHeaders : Prop)
    (s t : Session) : Prop where
  reachable : s.server.reachable = t.server.reachable
  replies : s.server.replies = t.server.replies
  received : s.server.received.map v.request = t.server.received.map w.request
  log : s.log.filter v.shows = t.log.filter w.shows
  headers : withHeaders → s.lastHeaders = t.lastHeaders

/-- Two outcomes with the sessions after them: the same result, and the same to see. -/
structure AlikeAfter
    {α : Type}
    (v w : Onlooker ρ)
    (withHeaders : Prop)
    (x y : α × Session) : Prop where
  result : x.1 = y.1
  sessions : Session.Alike v w withHeaders x.2 y.2

/-- Two records that look the same to one onlooker. -/
structure Record.Alike
    (v : Onlooker ρ)
    (withHeaders : Prop)
    (r q : Record) : Prop where
  result : r.result = q.result
  received : r.received.map v.request = q.received.map v.request
  unused : r.unused = q.unused
  log : r.log.filter v.shows = q.log.filter v.shows
  headers : withHeaders → r.lastHeaders = q.lastHeaders

variable {v w : Onlooker ρ} {withHeaders : Prop} {a b : Account} {s t : Session}

namespace Session.Alike

theorem note
    {entries : List Entry}
    (hs : Session.Alike v w withHeaders s t)
    (hab : a.Alike v w b)
    (hentries : ∀ entry ∈ entries, entry.IsOffWire) :
    Session.Alike v w withHeaders (s.note entries) (t.note entries) :=
  { hs with
    log := by
      have hshown : entries.filter v.shows = entries.filter w.shows :=
        List.filter_congr fun entry hentry => hab.offWire entry (hentries entry hentry)
      rw [Session.note, Session.note, List.filter_append, List.filter_append, hs.log, hshown] }

/-- What is seen of a dump. -/
theorem filter_log_dump
    (shows : Entry → Bool)
    (a : Account)
    (entry : Entry)
    (s : Session) :
    (Exchange.dump a entry s).log.filter shows =
      s.log.filter shows ++ if a.dumps && shows entry then [entry] else [] := by
  rw [Exchange.dump]
  cases a.dumps with
  | false => exact (List.append_nil _).symm
  | true => cases hseen : shows entry <;> simp [Session.note, hseen]

theorem dump
    {entry : Entry}
    (hs : Session.Alike v w withHeaders s t)
    (hab : a.Alike v w b)
    (hentry : ¬ entry.IsOffWire) :
    Session.Alike v w withHeaders (Exchange.dump a entry s) (Exchange.dump b entry t) where
  reachable := by rw [Exchange.server_dump, Exchange.server_dump, hs.reachable]
  replies := by rw [Exchange.server_dump, Exchange.server_dump, hs.replies]
  received := by rw [Exchange.server_dump, Exchange.server_dump, hs.received]
  log := by rw [filter_log_dump, filter_log_dump, hs.log, hab.wire entry hentry]
  headers := by
    intro hwith
    rw [Exchange.lastHeaders_dump, Exchange.lastHeaders_dump, hs.headers hwith]

/-- The headers of the exchange before are forgotten on both sides. -/
theorem forgetting
    (hs : Session.Alike v w withHeaders s t) :
    Session.Alike v w True { s with lastHeaders := {} } { t with lastHeaders := {} } :=
  { hs with headers := fun _ => rfl }

/-- A request on either side gets the same reply. -/
theorem serve
    (hs : Session.Alike v w withHeaders s t)
    (hab : a.Alike v w b)
    (c : Call)
    (uri : Uri) :
    (s.server.serve (Exchange.request a c uri)).1 = (t.server.serve (Exchange.request b c uri)).1 ∧
      Session.Alike v w withHeaders
        { s with server := (s.server.serve (Exchange.request a c uri)).2 }
        { t with server := (t.server.serve (Exchange.request b c uri)).2 } := by
  have hrequest := hab.request c uri
  obtain ⟨⟨reachable, replies, received⟩, headers, log⟩ := s
  obtain ⟨⟨reachable', replies', received'⟩, headers', log'⟩ := t
  obtain ⟨hreachable, hreplies, hreceived, hlog, hheaders⟩ := hs
  dsimp only at hreachable hreplies hreceived hlog hheaders
  subst hreachable hreplies
  cases reachable with
  | false => exact ⟨rfl, rfl, rfl, hreceived, hlog, hheaders⟩
  | true =>
    cases replies with
    | nil => exact ⟨rfl, rfl, rfl, by simp [Server.serve, hreceived, hrequest], hlog, hheaders⟩
    | cons reply replies =>
      exact ⟨rfl, rfl, rfl, by simp [Server.serve, hreceived, hrequest], hlog, hheaders⟩

theorem conclude
    (hs : Session.Alike v w withHeaders s t)
    (c : Call)
    (uri : Uri)
    (code : Nat)
    (h : Headers)
    (body : Bytes) :
    AlikeAfter v w withHeaders (Exchange.conclude c uri code h body s)
      (Exchange.conclude c uri code h body t) := by
  unfold Exchange.conclude
  split
  · exact ⟨rfl, { hs with headers := fun _ => rfl }⟩
  · exact ⟨rfl, hs⟩

end Session.Alike

theorem AlikeAfter.exists_eq
    {α : Type}
    {x y : α × Session}
    (hxy : AlikeAfter v w withHeaders x y) :
    ∃ result later later', x = (result, later) ∧ y = (result, later') ∧
      Session.Alike v w withHeaders later later' :=
  ⟨x.1, x.2, y.2, rfl, Prod.ext hxy.result.symm rfl, hxy.sessions⟩

/-- An exchange of either account leads to the same, and leaves the same headers whatever
was remembered before. -/
theorem perform_alike
    (hab : a.Alike v w b)
    (hs : Session.Alike v w withHeaders s t)
    (c : Call) :
    AlikeAfter v w True (Exchange.perform a c s) (Exchange.perform b c t) := by
  rw [Exchange.perform, Exchange.perform, ← hab.base, ← hab.timeout]
  cases a.base.resolve c.href with
  | error f => exact ⟨rfl, hs.forgetting⟩
  | ok uri =>
    have hwire : ¬ (Exchange.sentEntry c uri).IsOffWire := fun hoff => hoff rfl
    have hsent := hs.forgetting.dump hab hwire
    dsimp only
    generalize Exchange.dump a (Exchange.sentEntry c uri) { s with lastHeaders := {} } = s at hsent
    generalize Exchange.dump b (Exchange.sentEntry c uri) { t with lastHeaders := {} } = t at hsent
    obtain ⟨hreply, hserved⟩ := hsent.serve hab c uri
    rw [← hreply]
    cases Exchange.decode a.timeout (s.server.serve (Exchange.request a c uri)).1 with
    | error f => exact ⟨rfl, hserved⟩
    | ok decoded =>
      obtain ⟨code, h, body⟩ := decoded
      have hwire : ¬ (Exchange.gotEntry code h body).IsOffWire := fun hoff => hoff rfl
      exact (hserved.dump hab hwire).conclude c uri code h body

/-- A plan that leaves the wire to its exchanges hands out the same for either account. -/
theorem run_alike
    {α : Type}
    {p : Plan α}
    (hp : p.IsOffWire)
    (hab : a.Alike v w b)
    (hs : Session.Alike v w withHeaders s t) :
    AlikeAfter v w withHeaders (p.run a s) (p.run b t) := by
  induction p generalizing s t with
  | done value => exact ⟨rfl, hs⟩
  | fail f => exact ⟨rfl, hs⟩
  | note entry next ih =>
    obtain ⟨hentry, hnext⟩ := hp
    exact ih hnext (hs.note hab (List.forall_mem_singleton.2 hentry))
  | ask call complaints next ih =>
    obtain ⟨-, hcomplaints, hnext⟩ := hp
    obtain ⟨outcome, later, later', hdone, hdone', hlater⟩ :=
      (perform_alike hab hs call).exists_eq
    rw [Plan.run, Plan.run, hdone, hdone']
    have hkept : Session.Alike v w withHeaders later later' :=
      { hlater with headers := fun _ => hlater.headers trivial }
    cases outcome with
    | ok receipt => exact ih receipt (hnext receipt) hkept
    | error f => exact ⟨rfl, hkept.note hab (hcomplaints f)⟩

theorem steps_alike
    (hab : a.Alike v w b)
    (k : Kind)
    (count : Nat)
    (stage : Discovery.Stage)
    (hs : Session.Alike v w withHeaders s t) :
    AlikeAfter v w withHeaders (Discovery.steps a k count stage s)
      (Discovery.steps b k count stage t) := by
  induction count generalizing stage s t with
  | zero => exact ⟨rfl, hs⟩
  | succ n ih =>
    obtain ⟨outcome, later, later', hdone, hdone', hlater⟩ :=
      (run_alike (Discovery.keepsTo_step a.base k stage).isOffWire hab hs).exists_eq
    rw [Discovery.steps, Discovery.steps, ← hab.base, hdone, hdone']
    cases outcome with
    | ok next =>
      obtain ⟨hrest, hlast⟩ := ih next hlater
      exact ⟨by simp only [hrest], hlast⟩
    | error f =>
      obtain ⟨hrest, hlast⟩ := ih stage hlater
      exact ⟨by simp only [hrest], hlast⟩

/-- A directive leads to the same at either desk, if the item that it stores is the same. -/
theorem obey_alike
    {d e : Desk}
    {c : Directive}
    (hde : d.account.Alike v w e.account)
    (hitem : ∀ name, c = .store name → d.find? name = e.find? name)
    (hs : Session.Alike v w withHeaders s t) :
    (d.obey s c).1 = (e.obey t c).1 ∧
      Session.Alike v w withHeaders (d.obey s c).2.2 (e.obey t c).2.2 := by
  cases c with
  | store name =>
    rw [Desk.obey, Desk.obey, ← hitem name rfl]
    cases d.find? name with
    | none => exact ⟨rfl, hs⟩
    | some item =>
      obtain ⟨outcome, later, later', hdone, hdone', hlater⟩ :=
        (run_alike (Client.isOffWire_store item) hde hs).exists_eq
      dsimp only
      rw [hdone, hdone']
      cases outcome with
      | ok stored => exact ⟨rfl, hlater⟩
      | error f => exact ⟨rfl, hlater⟩
  | operate operation keepAs =>
    obtain ⟨hresult, hlater⟩ := run_alike (operation.isOffWire_plan d.account.base) hde hs
    rw [Desk.obey, Desk.obey, ← hde.base]
    exact ⟨congrArg Result.outcome hresult, hlater⟩
  | steps k count =>
    obtain ⟨hresult, hlater⟩ := steps_alike hde k count .start hs
    exact ⟨congrArg Result.steps hresult, hlater⟩
  | setDumps on => exact ⟨rfl, hs⟩
  | setTimeout limit => exact ⟨rfl, hs⟩
  | principalOf email =>
    rw [Desk.obey, Desk.obey, ← hde.base]
    exact ⟨rfl, hs⟩
  | keep name item => exact ⟨rfl, hs⟩

theorem handle_alike
    {d e : Desk}
    {c : Directive}
    (hde : d.account.Alike v v e.account)
    (hitem : ∀ name, c = .store name → d.find? name = e.find? name)
    (hheaders : withHeaders → d.lastHeaders = e.lastHeaders)
    (server : Server) :
    (d.handle server c).1.Alike v withHeaders (e.handle server c).1 := by
  have hmeeting : Session.Alike v v withHeaders
      { server, lastHeaders := d.lastHeaders } { server, lastHeaders := e.lastHeaders } :=
    ⟨rfl, rfl, rfl, rfl, hheaders⟩
  obtain ⟨hresult, hlater⟩ := obey_alike hde hitem hmeeting
  exact ⟨hresult, hlater.received, congrArg List.length hlater.replies, hlater.log, hlater.headers⟩

/-- Nothing of the log is left aside by an onlooker who is shown every entry. -/
theorem Record.Alike.log_eq
    {r q : Record}
    (hrq : r.Alike v withHeaders q)
    (hshows : ∀ entry, v.shows entry = true) :
    r.log = q.log := by
  have hall (log : List Entry) : log.filter v.shows = log :=
    List.filter_eq_self.2 fun entry _ => hshows entry
  rw [← hall r.log, hrq.log, hall]

end Alike

/-! The desk afterwards. -/

namespace Directive

/-- The account with the settings that a directive changes. -/
def configured (a : Account) : Directive → Account
  | setDumps on => { a with dumps := on }
  | setTimeout limit => { a with timeout := limit }
  | _ => a

/-- The items that are kept newly after a directive that led to a result, latest first. -/
def added : Directive → Result → List (String × Item)
  | keep name item, _ => [(name, item)]
  | store name, .stored (.ok _) item => [(name, item)]
  | operate _ (some name), .outcome (.ok (.items items)) =>
    (items.zipIdx.map fun (item, n) => (name ++ toString n, item)).reverse
  | _, _ => []

end Directive

namespace Desk

theorem putAll_eq
    (d : Desk)
    (name : String)
    (items : List Item) :
    d.putAll name items =
      { d with
        items := (items.zipIdx.map fun (item, n) => (name ++ toString n, item)).reverse ++
          d.items } := by
  rw [putAll]
  induction items.zipIdx generalizing d with
  | nil => rfl
  | cons numbered rest ih =>
    rw [List.foldl_cons, ih]
    simp [put]

/-- A directive changes the account only in its settings, and adds to the items what its
result says. -/
theorem desk_obey
    (d : Desk)
    (s : Session)
    (c : Directive) :
    (d.obey s c).2.1 =
      { d with
        account := c.configured d.account
        items := c.added (d.obey s c).1 ++ d.items } := by
  cases c with
  | store name =>
    rw [obey]
    cases d.find? name with
    | none => rfl
    | some item =>
      dsimp only
      cases (Client.store item).run d.account s with
      | mk outcome later => cases outcome <;> rfl
  | operate operation keepAs =>
    rw [obey]
    dsimp only
    cases (operation.plan d.account.base).run d.account s with
    | mk outcome later =>
      cases outcome with
      | error f => cases keepAs <;> rfl
      | ok value =>
        cases keepAs with
        | none => cases value <;> rfl
        | some name =>
          cases value with
          | items list => exact putAll_eq d name list
          | _ => rfl
  | _ => rfl

/-- The desk after a directive, told from its record. -/
theorem desk_handle
    (d : Desk)
    (server : Server)
    (c : Directive) :
    (d.handle server c).2 =
      { account := c.configured d.account
        lastHeaders := (d.handle server c).1.lastHeaders
        items := c.added (d.handle server c).1.result ++ d.items } := by
  rw [handle]
  dsimp only
  rw [desk_obey]

end Desk
end PimDav
