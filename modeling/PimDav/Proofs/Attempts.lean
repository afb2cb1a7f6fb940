import PimDav.Proofs.Plan

/-!
# The attempts of a plan

Every call of a plan is one attempt at an exchange.  It makes one request, or none
when its href has no address, and the request gets the next reply of the server.  So
the attempts tell all that happens between a plan and a server: which requests were
made, which replies were used up and in what order, and which headers are remembered.
What a caller sees of them, the receipts and the outcomes, is read off the attempts.
-/

namespace PimDav

open Http (Answer Call Headers Receipt Reply Request)

theorem eq_ok_of_toOption
    {α : Type}
    {outcome : Except Fault α}
    {value : α}
    (hvalue : outcome.toOption = some value) :
    outcome = .ok value := by
  cases outcome with
  | ok other => exact congrArg Except.ok (Option.some.inj hvalue)
  | error f => cases hvalue

namespace Server

/-- Requests served one after another. -/
def serveAll : Server → List Request → List Reply × Server
  | v, [] => ([], v)
  | v, r :: requests =>
    let later := (v.serve r).2.serveAll requests
    ((v.serve r).1 :: later.1, later.2)

theorem serveAll_append
    (v : Server)
    (first rest : List Request) :
    v.serveAll (first ++ rest) =
      ((v.serveAll first).1 ++ ((v.serveAll first).2.serveAll rest).1,
        ((v.serveAll first).2.serveAll rest).2) := by
  induction first generalizing v with
  | nil => rfl
  | cons r first ih => rw [List.cons_append, serveAll, ih, serveAll, List.cons_append]

theorem serveAll_unreachable
    {v : Server}
    (hreachable : v.reachable = false)
    (requests : List Request) :
    v.serveAll requests = (List.replicate requests.length .noAnswer, v) := by
  induction requests with
  | nil => rfl
  | cons r requests ih =>
    have hserve : v.serve r = (.noAnswer, v) := by
      rw [serve, hreachable, if_neg Bool.false_ne_true]
    rw [serveAll, hserve, ih, List.length_cons, List.replicate_succ]

/-- A server that can be reached gets every request, and gives its replies in their order,
each of them once. -/
theorem serveAll_reachable
    {v : Server}
    (hreachable : v.reachable = true)
    (requests : List Request) :
    v.serveAll requests =
      (v.replies.take requests.length ++
          List.replicate (requests.length - v.replies.length) (.answer notFound),
        { v with
          replies := v.replies.drop requests.length
          received := v.received ++ requests }) := by
  obtain ⟨reachable, replies, received⟩ := v
  dsimp only at hreachable
  subst hreachable
  induction requests generalizing replies received with
  | nil => simp [serveAll]
  | cons r requests ih =>
    cases replies with
    | nil => simp [serveAll, serve, ih, List.replicate_succ]
    | cons reply replies => simp [serveAll, serve, ih]

theorem reachable_serveAll
    (v : Server)
    (requests : List Request) :
    (v.serveAll requests).2.reachable = v.reachable := by
  cases hreachable : v.reachable with
  | true => rw [serveAll_reachable hreachable, ← hreachable]
  | false => rw [serveAll_unreachable hreachable, hreachable]

end Server

/-- A call that was made, the reply to its request, if it made one, and what it led to. -/
structure Attempt where
  call : Call
  reply : Option Reply
  outcome : Except Fault Receipt

/-- A call that was made, with its receipt unless it failed. -/
structure Asked where
  call : Call
  receipt : Option Receipt := none

namespace Attempt

/-- An attempt without the reply and without the fault. -/
def asked (t : Attempt) : Asked where
  call := t.call
  receipt := t.outcome.toOption

/-- The answer that an attempt got in whole: one that reports success and whose codings
could be undone. -/
def answer? (t : Attempt) : Option Answer :=
  match t.reply with
  | some (.answer answer) =>
    if Http.isSuccess answer.code && (answer.body.decode? answer.headers.codings).isSome then
      some answer
    else none
  | _ => none

/-- The answer in whole is the one that reports success and whose codings can be undone. -/
theorem answer?_eq_some_iff
    {t : Attempt}
    {answer : Answer} :
    t.answer? = some answer ↔
      t.reply = some (.answer answer) ∧ Http.isSuccess answer.code = true ∧
        ∃ bytes, answer.body.decode? answer.headers.codings = some bytes := by
  unfold answer?
  split
  case h_1 other hreply =>
    rw [hreply, Option.ite_none_right_eq_some, Bool.and_eq_true, Option.isSome_iff_exists]
    constructor
    · rintro ⟨⟨hcode, hbody⟩, hsame⟩
      obtain rfl := Option.some.inj hsame
      exact ⟨rfl, hcode, hbody⟩
    · rintro ⟨hsame, hcode, hbody⟩
      cases hsame
      exact ⟨⟨hcode, hbody⟩, rfl⟩
  case h_2 hother =>
    constructor
    · nofun
    · rintro ⟨hreply, -⟩
      exact absurd hreply (hother answer)

/-- The headers that are remembered after an attempt. -/
def remembered (t : Attempt) : Headers :=
  match t.answer? with
  | some answer => answer.headers.decoded answer.headers.codings
  | none => {}

/-- An attempt without an address makes no request and fails for that reason, and any other
makes one request, whose reply decides what it leads to. -/
structure IsExchange
    (a : Account)
    (t : Attempt) : Prop where
  unsent : ∀ f, a.base.resolve t.call.href = .error f →
    Exchange.requests a t.call = [] ∧ t.reply = none ∧ t.outcome = .error f
  sent : ∀ uri, a.base.resolve t.call.href = .ok uri →
    Exchange.requests a t.call = [Exchange.request a t.call uri] ∧
      ∃ reply, t.reply = some reply ∧ t.outcome = Exchange.outcome a t.call reply

/-- The headers that are remembered after attempts, when others were before. -/
def latest
    (h : Headers)
    (tried : List Attempt) : Headers :=
  (tried.getLast?.map remembered).getD h

theorem latest_append
    (h : Headers)
    (first rest : List Attempt) :
    latest h (first ++ rest) = latest (latest h first) rest := by
  rw [latest, latest, List.getLast?_append]
  cases rest.getLast? <;> rfl

/-- What attempts make of a session: their requests are served one after another, and the
last attempt alone decides which headers are remembered. -/
structure LeadTo
    (a : Account)
    (s : Session)
    (tried : List Attempt)
    (later : Session) : Prop where
  served : s.server.serveAll (tried.flatMap fun t => Exchange.requests a t.call) =
    (tried.filterMap (·.reply), later.server)
  headers : later.lastHeaders = latest s.lastHeaders tried

namespace LeadTo

variable {a : Account} {s later : Session} {tried : List Attempt}

theorem nil
    (a : Account)
    (s : Session) :
    LeadTo a s [] s where
  served := rfl
  headers := rfl

theorem append
    {last : Session}
    {rest : List Attempt}
    (hfirst : LeadTo a s tried later)
    (hrest : LeadTo a later rest last) :
    LeadTo a s (tried ++ rest) last where
  served := by
    rw [List.flatMap_append, Server.serveAll_append, hfirst.served, hrest.served,
      List.filterMap_append]
  headers := by rw [hrest.headers, hfirst.headers, latest_append]

/-- The log has no part in it. -/
theorem note
    (hled : LeadTo a s tried later)
    (entries : List Entry) :
    LeadTo a s tried (later.note entries) where
  served := hled.served
  headers := hled.headers

theorem of_note
    {entries : List Entry}
    (hled : LeadTo a (s.note entries) tried later) :
    LeadTo a s tried later where
  served := hled.served
  headers := hled.headers

theorem reachable
    (hled : LeadTo a s tried later) :
    later.server.reachable = s.server.reachable := by
  have hkept := s.server.reachable_serveAll (tried.flatMap fun t => Exchange.requests a t.call)
  rwa [hled.served] at hkept

/-- A server that can be reached gets the requests of the attempts and no other, and gives a
reply to each of them. -/
theorem server
    (hled : LeadTo a s tried later)
    (hreachable : s.server.reachable = true) :
    later.server =
      { s.server with
        replies := s.server.replies.drop
          (tried.flatMap fun t => Exchange.requests a t.call).length
        received := s.server.received ++ tried.flatMap fun t => Exchange.requests a t.call } := by
  have hserved := hled.served
  rw [Server.serveAll_reachable hreachable] at hserved
  exact (congrArg Prod.snd hserved).symm

/-- A server gets the requests of the attempts, if it can be reached. -/
theorem received
    (hled : LeadTo a s tried later) :
    later.server.received =
      s.server.received ++
        (if s.server.reachable then tried.flatMap fun t => Exchange.requests a t.call
        else []) := by
  cases hreachable : s.server.reachable with
  | true => rw [hled.server hreachable, if_pos rfl]
  | false =>
    have hserved := hled.served
    rw [Server.serveAll_unreachable hreachable] at hserved
    have hsame : s.server = later.server := congrArg Prod.snd hserved
    rw [← hsame, if_neg Bool.false_ne_true, List.append_nil]

end LeadTo

theorem length_requests_le
    (a : Account)
    (tried : List Attempt) :
    (tried.flatMap fun t => Exchange.requests a t.call).length ≤ tried.length := by
  induction tried with
  | nil => exact Nat.le_refl 0
  | cons t tried ih =>
    have hone := Exchange.length_requests_le a t.call
    rw [List.flatMap_cons, List.length_append, List.length_cons]
    omega

end Attempt

namespace Exchange

variable {a : Account} {c : Call}

/-- A call made to a server. -/
def attempt
    (a : Account)
    (c : Call)
    (v : Server) : Attempt where
  call := c
  reply := (requests a c).head?.map fun r => (v.serve r).1
  outcome := (meet a c v).1

/-- Without an address nothing is sent. -/
theorem attempt_of_resolve_error
    {f : Fault}
    (hresolve : a.base.resolve c.href = .error f)
    (v : Server) :
    attempt a c v = ⟨c, none, .error f⟩ := by
  rw [attempt, requests, hresolve, meet_of_resolve_error hresolve]
  rfl

theorem attempt_of_resolve
    {uri : Uri}
    (hresolve : a.base.resolve c.href = .ok uri)
    (v : Server) :
    attempt a c v = ⟨c, some v.next, outcome a c v.next⟩ := by
  rw [attempt, requests, hresolve, meet, perform_fst]
  simp

theorem isExchange_attempt
    (a : Account)
    (c : Call)
    (v : Server) :
    (attempt a c v).IsExchange a := by
  constructor
  · intro f hresolve
    change a.base.resolve c.href = .error f at hresolve
    rw [attempt_of_resolve_error hresolve]
    exact ⟨by rw [requests, hresolve], rfl, rfl⟩
  · intro uri hresolve
    change a.base.resolve c.href = .ok uri at hresolve
    rw [attempt_of_resolve hresolve]
    exact ⟨by rw [requests, hresolve], v.next, rfl, rfl⟩

/-- The request of a call is served once. -/
theorem serveAll_requests
    (a : Account)
    (c : Call)
    (v : Server) :
    v.serveAll (requests a c) = ((attempt a c v).reply.toList, (meet a c v).2) := by
  cases hresolve : a.base.resolve c.href with
  | error f =>
    rw [attempt_of_resolve_error hresolve, meet_of_resolve_error hresolve, requests, hresolve]
    rfl
  | ok uri =>
    rw [attempt_of_resolve hresolve, server_meet_of_resolve hresolve, requests, hresolve]
    simp [Server.serveAll]

/-- An exchange leaves the headers of its own answer, or none at all. -/
theorem lastHeaders_perform
    (a : Account)
    (c : Call)
    (s : Session) :
    (perform a c s).2.lastHeaders = (attempt a c s.server).remembered := by
  cases hresolve : a.base.resolve c.href with
  | error f =>
    rw [attempt_of_resolve_error hresolve, perform, hresolve]
    rfl
  | ok uri =>
    rw [attempt_of_resolve hresolve, perform, hresolve]
    simp only [server_dump, Server.serve_fst]
    cases s.server.next with
    | answer answer =>
      cases hbody : answer.body.decode? answer.headers.codings with
      | none => simp [decode, hbody, Attempt.remembered, Attempt.answer?]
      | some body =>
        cases hcode : Http.isSuccess answer.code <;>
          simp [decode, conclude, hbody, hcode, Attempt.remembered, Attempt.answer?]
    | _ => simp [decode, Attempt.remembered, Attempt.answer?]

theorem leadTo_perform
    (a : Account)
    (c : Call)
    (s : Session) :
    Attempt.LeadTo a s [attempt a c s.server] (perform a c s).2 where
  served := by
    rw [List.flatMap_singleton, (perform_meets a c s).2]
    refine (serveAll_requests a c s.server).trans ?_
    cases hreply : (attempt a c s.server).reply <;> simp [hreply]
  headers := lastHeaders_perform a c s

end Exchange

namespace Plan

variable {α β : Type}

/-- The calls of a plan that meets a server, in order, each with what became of it. -/
def attempts (a : Account) : Plan α → Server → List Attempt
  | done _, _ => []
  | fail _, _ => []
  | note _ next, v => next.attempts a v
  | ask call _ next, v =>
    Exchange.attempt a call v ::
      match Exchange.meet a call v with
      | (.ok receipt, v) => (next receipt).attempts a v
      | (.error _, _) => []

section Ask

variable {a : Account} {call : Call} {s later : Session}

theorem meet_of_perform
    {outcome : Except Fault Receipt}
    (hdone : Exchange.perform a call s = (outcome, later)) :
    Exchange.meet a call s.server = (outcome, later.server) := by
  obtain ⟨houtcome, hserver⟩ := Exchange.perform_meets a call s
  rw [hdone] at houtcome hserver
  exact Prod.ext houtcome.symm hserver.symm

theorem attempts_ask_of_ok
    {receipt : Receipt}
    (hdone : Exchange.perform a call s = (.ok receipt, later))
    (complaints : Fault → List Entry)
    (next : Receipt → Plan α) :
    (ask call complaints next).attempts a s.server =
      Exchange.attempt a call s.server :: (next receipt).attempts a later.server := by
  rw [attempts, meet_of_perform hdone]

theorem attempts_ask_of_error
    {f : Fault}
    (hdone : Exchange.perform a call s = (.error f, later))
    (complaints : Fault → List Entry)
    (next : Receipt → Plan α) :
    (ask call complaints next).attempts a s.server = [Exchange.attempt a call s.server] := by
  rw [attempts, meet_of_perform hdone]

end Ask

/-- A call fails and the plan with it, or the plan goes on with the receipt in the session
that the call left. -/
theorem ask_cases
    (a : Account)
    (call : Call)
    (complaints : Fault → List Entry)
    (next : Receipt → Plan α)
    (s : Session) :
    (∃ f later,
      Exchange.perform a call s = (.error f, later) ∧
      (Exchange.attempt a call s.server).outcome = .error f ∧
      (ask call complaints next).run a s = (.error f, later.note (complaints f)) ∧
      (ask call complaints next).attempts a s.server = [Exchange.attempt a call s.server]) ∨
    ∃ receipt later,
      Exchange.perform a call s = (.ok receipt, later) ∧
      (Exchange.attempt a call s.server).outcome = .ok receipt ∧
      (ask call complaints next).run a s = (next receipt).run a later ∧
      (ask call complaints next).attempts a s.server =
        Exchange.attempt a call s.server :: (next receipt).attempts a later.server := by
  rw [run]
  cases hdone : Exchange.perform a call s with
  | mk outcome later =>
    have houtcome : (Exchange.attempt a call s.server).outcome = outcome :=
      congrArg Prod.fst (meet_of_perform hdone)
    cases outcome with
    | error f => exact Or.inl ⟨f, later, rfl, houtcome, rfl, attempts_ask_of_error hdone _ _⟩
    | ok receipt =>
      exact Or.inr ⟨receipt, later, rfl, houtcome, rfl, attempts_ask_of_ok hdone _ _⟩

/-- What is noted, and how a plan goes on after a receipt, counts only for what is attempted
later. -/
theorem attempts_ask_congr
    {a : Account}
    {next : Receipt → Plan α}
    {other : Receipt → Plan β}
    (hnext : ∀ receipt v, (next receipt).attempts a v = (other receipt).attempts a v)
    (call : Call)
    (complaints others : Fault → List Entry)
    (v : Server) :
    (ask call complaints next).attempts a v = (ask call others other).attempts a v := by
  rw [attempts, attempts]
  cases Exchange.meet a call v with
  | mk outcome later =>
    cases outcome with
    | error f => rfl
    | ok receipt => exact congrArg (_ :: ·) (hnext receipt later)

theorem attempts_noting
    (a : Account)
    (entries : List Entry)
    (p : Plan α)
    (v : Server) :
    (noting entries p).attempts a v = p.attempts a v := by
  induction entries with
  | nil => rfl
  | cons entry entries ih => exact ih

/-- One plan and then another make the attempts of both, unless the first one fails. -/
theorem attempts_andThen
    (a : Account)
    (p : Plan α)
    (k : α → Plan β)
    (s : Session) :
    (p.andThen k).attempts a s.server =
      p.attempts a s.server ++
        match p.run a s with
        | (.ok value, s) => (k value).attempts a s.server
        | (.error _, _) => [] := by
  induction p generalizing s with
  | done value => rfl
  | fail f => rfl
  | note entry next ih => exact ih (s.note [entry])
  | ask call complaints next ih =>
    rw [andThen]
    rcases ask_cases a call complaints next s with
      ⟨f, later, hdone, -, hrun, htried⟩ | ⟨receipt, later, hdone, -, hrun, htried⟩
    · rw [hrun, htried, attempts_ask_of_error hdone]
      rfl
    · rw [hrun, htried, attempts_ask_of_ok hdone, ih receipt later]
      rfl

theorem attempts_andThen_done
    (a : Account)
    (p : Plan α)
    (result : α → β)
    (s : Session) :
    (p.andThen fun value => .done (result value)).attempts a s.server = p.attempts a s.server := by
  rw [attempts_andThen]
  cases p.run a s with
  | mk outcome later => cases outcome <;> exact List.append_nil _

theorem run_andThen_done
    (a : Account)
    (p : Plan α)
    (result : α → β)
    (s : Session) :
    (p.andThen fun value => .done (result value)).run a s =
      ((p.run a s).1.map result, (p.run a s).2) := by
  rw [run_andThen]
  cases p.run a s with
  | mk outcome later => cases outcome <;> rfl

/-- The first of two plans that succeed one after the other. -/
theorem ok_of_andThen
    {a : Account}
    {p : Plan α}
    {k : α → Plan β}
    {s : Session}
    {value : β}
    (hdone : ((p.andThen k).run a s).1 = .ok value) :
    ∃ first later,
      p.run a s = (.ok first, later) ∧
      (p.andThen k).attempts a s.server =
        p.attempts a s.server ++ (k first).attempts a later.server ∧
      ((k first).run a later).1 = .ok value := by
  rw [run_andThen] at hdone
  rw [attempts_andThen]
  cases hp : p.run a s with
  | mk outcome later =>
    rw [hp] at hdone
    cases outcome with
    | error f => cases hdone
    | ok first => exact ⟨first, later, rfl, rfl, hdone⟩

/-- A plan that begins with a call and succeeds has got a receipt for the call. -/
theorem ok_of_ask
    {a : Account}
    {call : Call}
    {complaints : Fault → List Entry}
    {next : Receipt → Plan α}
    {s : Session}
    {value : α}
    (hdone : ((ask call complaints next).run a s).1 = .ok value) :
    ∃ receipt later,
      Exchange.perform a call s = (.ok receipt, later) ∧
      (Exchange.attempt a call s.server).outcome = .ok receipt ∧
      (ask call complaints next).attempts a s.server =
        Exchange.attempt a call s.server :: (next receipt).attempts a later.server ∧
      ((next receipt).run a later).1 = .ok value := by
  rcases ask_cases a call complaints next s with
    ⟨f, later, -, -, hrun, -⟩ | ⟨receipt, later, hperform, houtcome, hrun, htried⟩
  · rw [hrun] at hdone
    cases hdone
  · rw [hrun] at hdone
    exact ⟨receipt, later, hperform, houtcome, htried, hdone⟩

/-! What is noted at the end of a plan changes neither its attempts nor its result. -/

theorem attempts_andThen_note
    (a : Account)
    (p : Plan α)
    (entry : α → Entry)
    (s : Session) :
    (p.andThen fun value => .note (entry value) (.done value)).attempts a s.server =
      p.attempts a s.server := by
  rw [attempts_andThen]
  cases p.run a s with
  | mk outcome later => cases outcome <;> exact List.append_nil _

theorem fst_run_andThen_note
    (a : Account)
    (p : Plan α)
    (entry : α → Entry)
    (s : Session) :
    ((p.andThen fun value => .note (entry value) (.done value)).run a s).1 =
      (p.run a s).1 := by
  rw [run_andThen]
  cases p.run a s with
  | mk outcome later => cases outcome <;> rfl

/-- An attempt of a plan that begins with a call is the one at this call, or comes after its
receipt. -/
theorem mem_attempts_ask
    {a : Account}
    {call : Call}
    {complaints : Fault → List Entry}
    {next : Receipt → Plan α}
    {s : Session}
    {t : Attempt}
    (ht : t ∈ (ask call complaints next).attempts a s.server) :
    t = Exchange.attempt a call s.server ∨
      ∃ (receipt : Receipt) (later : Session), t ∈ (next receipt).attempts a later.server := by
  rcases ask_cases a call complaints next s with
    ⟨f, later, -, -, -, htried⟩ | ⟨receipt, later, -, -, -, htried⟩
  · rw [htried, List.mem_singleton] at ht
    exact Or.inl ht
  · rw [htried, List.mem_cons] at ht
    exact ht.imp_right fun ht => ⟨receipt, later, ht⟩

theorem isExchange_of_mem
    {a : Account}
    {p : Plan α}
    {s : Session}
    {t : Attempt}
    (ht : t ∈ p.attempts a s.server) :
    t.IsExchange a := by
  induction p generalizing s with
  | done value => cases ht
  | fail f => cases ht
  | note entry next ih => exact ih (s := s) ht
  | ask call complaints next ih =>
    rcases mem_attempts_ask ht with rfl | ⟨receipt, later, ht⟩
    · exact Exchange.isExchange_attempt a call s.server
    · exact ih receipt ht

/-- An attempt that fails is the last one, and the plan fails with it. -/
theorem eq_nil_of_outcome_error
    {a : Account}
    {p : Plan α}
    {s : Session}
    {earlier later : List Attempt}
    {t : Attempt}
    {f : Fault}
    (htried : p.attempts a s.server = earlier ++ t :: later)
    (hf : t.outcome = .error f) :
    later = [] ∧ (p.run a s).1 = .error f := by
  induction p generalizing s earlier with
  | done value => simp [attempts] at htried
  | fail g => simp [attempts] at htried
  | note entry next ih => exact ih (s := s.note [entry]) htried
  | ask call complaints next ih =>
    rcases ask_cases a call complaints next s with
      ⟨g, after, -, houtcome, hrun, hwhole⟩ | ⟨receipt, after, -, houtcome, hrun, hwhole⟩
    · rw [hwhole] at htried
      cases earlier with
      | nil =>
        obtain ⟨rfl, rfl⟩ := List.cons.inj htried
        obtain rfl : g = f := Except.error.inj (houtcome.symm.trans hf)
        rw [hrun]
        exact ⟨rfl, rfl⟩
      | cons first earlier =>
        have hnothing := (List.cons.inj htried).2
        simp at hnothing
    · rw [hwhole] at htried
      cases earlier with
      | nil =>
        obtain ⟨rfl, -⟩ := List.cons.inj htried
        rw [houtcome] at hf
        cases hf
      | cons first earlier =>
        rw [hrun]
        exact ih receipt (List.cons.inj htried).2

/-- The attempts of a plan lead from the session in which it starts to the one in which it
ends. -/
theorem leadTo_run
    (a : Account)
    (p : Plan α)
    (s : Session) :
    Attempt.LeadTo a s (p.attempts a s.server) (p.run a s).2 := by
  induction p generalizing s with
  | done value => exact .nil a s
  | fail f => exact .nil a s
  | note entry next ih => exact (ih (s.note [entry])).of_note
  | ask call complaints next ih =>
    have hfirst := Exchange.leadTo_perform a call s
    rcases ask_cases a call complaints next s with
      ⟨f, later, hdone, -, hrun, htried⟩ | ⟨receipt, later, hdone, -, hrun, htried⟩
    · rw [hdone] at hfirst
      rw [hrun, htried]
      exact hfirst.note _
    · rw [hdone] at hfirst
      rw [hrun, htried]
      exact hfirst.append (ih receipt later)

/-- A server that cannot be reached sees a plan end with its first call. -/
theorem length_attempts_unreachable
    {v : Server}
    (hreachable : v.reachable = false)
    (a : Account)
    (p : Plan α) :
    (p.attempts a v).length ≤ 1 := by
  induction p with
  | done value => exact Nat.zero_le 1
  | fail f => exact Nat.zero_le 1
  | note entry next ih => exact ih
  | ask call complaints next ih =>
    obtain ⟨f, hf⟩ := Exchange.meet_unreachable hreachable a call
    rcases ask_cases a call complaints next { server := v } with
      ⟨_, _, -, -, -, htried⟩ | ⟨receipt, _, -, houtcome, -, -⟩
    · exact Nat.le_of_eq (congrArg List.length htried)
    · cases hf.symm.trans houtcome

/-! What is seen of the attempts from outside. -/

/-- The calls of a plan that meets a server, in order. -/
def trace
    (a : Account)
    (p : Plan α)
    (v : Server) : List Asked :=
  (p.attempts a v).map Attempt.asked

/-- A call fails, or the plan goes on with its receipt. -/
theorem trace_ask_cases
    (a : Account)
    (call : Call)
    (complaints : Fault → List Entry)
    (next : Receipt → Plan α)
    (v : Server) :
    (ask call complaints next).trace a v = [⟨call, none⟩] ∨
      ∃ receipt later,
        (ask call complaints next).trace a v =
          ⟨call, some receipt⟩ :: (next receipt).trace a later := by
  have hasked : (Exchange.attempt a call v).asked =
      ⟨call, (Exchange.attempt a call v).outcome.toOption⟩ := rfl
  rcases ask_cases a call complaints next { server := v } with
    ⟨f, later, -, houtcome, -, htried⟩ | ⟨receipt, later, -, houtcome, -, htried⟩
  · left
    rw [trace, htried, List.map_singleton, hasked, houtcome]
    rfl
  · refine Or.inr ⟨receipt, later.server, ?_⟩
    rw [trace, htried, List.map_cons, hasked, houtcome]
    rfl

/-- What the calls of a plan lead to, in order. -/
def outcomes
    (a : Account)
    (p : Plan α)
    (s : Session) : List (Except Fault Receipt) :=
  (p.attempts a s.server).map (·.outcome)

end Plan
end PimDav
