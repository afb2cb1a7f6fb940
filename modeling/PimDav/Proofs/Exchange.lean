import PimDav.Exchange
import PimDav.Proofs.Xml.RoundTrip

/-!
# What an exchange does

An exchange sends one request, or none when the href has no address, and its
outcome is the answer of the server.
-/

namespace PimDav

open Http (Answer Call Receipt Received Reply Request)

namespace Server

/-- The reply that the next request gets. -/
def next (v : Server) : Reply :=
  if v.reachable then v.replies.head?.getD (.answer notFound) else .noAnswer

@[simp] theorem serve_fst
    (v : Server)
    (r : Request) :
    (v.serve r).1 = v.next := by
  unfold serve next
  cases v.reachable with
  | false => rfl
  | true => cases v.replies <;> rfl

/-- A server that has nothing left answers without success. -/
theorem replies_of_next
    {v : Server}
    {answer : Answer}
    (hnext : v.next = .answer answer)
    (hcode : Http.isSuccess answer.code = true) :
    v.reachable = true ∧ ∃ replies, v.replies = .answer answer :: replies := by
  unfold next at hnext
  cases hreachable : v.reachable with
  | false =>
    rw [hreachable] at hnext
    cases hnext
  | true =>
    rw [hreachable, if_pos rfl] at hnext
    cases hreplies : v.replies with
    | nil =>
      rw [hreplies] at hnext
      cases hnext
      cases hcode
    | cons reply replies =>
      rw [hreplies] at hnext
      cases hnext
      exact ⟨rfl, replies, rfl⟩

theorem next_of_replies
    {v : Server}
    {reply : Reply}
    {replies : List Reply}
    (hreachable : v.reachable = true)
    (hreplies : v.replies = reply :: replies) :
    v.next = reply := by
  rw [next, hreachable, hreplies]
  rfl

/-- A request to a server that can be reached uses up the reply that it gets. -/
theorem replies_serve
    {v : Server}
    (hreachable : v.reachable = true)
    (r : Request) :
    (v.serve r).2.replies = v.replies.tail := by
  rw [serve, hreachable, if_pos rfl]
  split
  case h_1 hreplies => rw [hreplies, List.tail_cons]
  case h_2 hreplies => rw [hreplies, List.tail_nil]

/-- The server when it had got other requests before. -/
def after
    (v : Server)
    (received : List Request) : Server :=
  { v with received := received ++ v.received }

theorem serve_after
    (v : Server)
    (received : List Request)
    (r : Request) :
    (v.after received).serve r = ((v.serve r).1, (v.serve r).2.after received) := by
  obtain ⟨reachable, replies, earlier⟩ := v
  cases reachable with
  | false => rfl
  | true => cases replies <;> simp [serve, after]

end Server

namespace Session

/-- The session when other requests and entries had been before. -/
def after
    (s : Session)
    (received : List Request)
    (log : List Entry) : Session :=
  { s with server := s.server.after received, log := log ++ s.log }

theorem note_after
    (s : Session)
    (received : List Request)
    (log entries : List Entry) :
    (s.after received log).note entries = (s.note entries).after received log := by
  simp [note, after]

end Session

namespace Exchange

variable {a : Account} {c : Call} {s : Session}

/-- The requests that a call makes: one, if its href has an address. -/
def requests
    (a : Account)
    (c : Call) : List Request :=
  match a.base.resolve c.href with
  | .ok uri => [request a c uri]
  | .error _ => []

/-- A call as a server meets it. -/
def meet
    (a : Account)
    (c : Call)
    (v : Server) : Except Fault Receipt × Server :=
  let done := perform a c { server := v }
  (done.1, done.2.server)

@[simp] theorem server_dump
    (a : Account)
    (entry : Entry)
    (s : Session) :
    (dump a entry s).server = s.server := by
  unfold dump
  split <;> rfl

@[simp] theorem lastHeaders_dump
    (a : Account)
    (entry : Entry)
    (s : Session) :
    (dump a entry s).lastHeaders = s.lastHeaders := by
  unfold dump
  split <;> rfl

@[simp] theorem server_conclude
    (c : Call)
    (uri : Uri)
    (code : Nat)
    (h : Http.Headers)
    (body : Bytes)
    (s : Session) :
    (conclude c uri code h body s).2.server = s.server := by
  unfold conclude
  split <;> rfl

/-- What a call leads to when a reply comes to its request. -/
def outcome
    (a : Account)
    (c : Call)
    (reply : Reply) : Except Fault Receipt := do
  let uri ← a.base.resolve c.href
  let (code, headers, body) ← decode a.timeout reply
  if Http.isSuccess code then
    (receive body).map fun body => { code, headers, body }
  else throw (.status c.method uri.text code)

/-- Only the next reply of the server decides what a call leads to. -/
theorem perform_fst
    (a : Account)
    (c : Call)
    (s : Session) :
    (perform a c s).1 = outcome a c s.server.next := by
  rw [perform, outcome]
  cases a.base.resolve c.href with
  | error f => rfl
  | ok uri =>
    simp only [server_dump, Server.serve_fst]
    cases decode a.timeout s.server.next with
    | error f => simp [bind, Except.bind]
    | ok decoded =>
      obtain ⟨code, h, body⟩ := decoded
      simp only [conclude, bind, Except.bind]
      split <;> rfl

/-- Neither the log nor the headers of the last exchange matter to a call. -/
theorem perform_meets
    (a : Account)
    (c : Call)
    (s : Session) :
    (perform a c s).1 = (meet a c s.server).1 ∧
      (perform a c s).2.server = (meet a c s.server).2 := by
  refine ⟨(perform_fst a c s).trans (perform_fst a c { server := s.server }).symm, ?_⟩
  unfold meet perform
  cases a.base.resolve c.href with
  | error f => rfl
  | ok uri =>
    simp only [server_dump]
    cases decode a.timeout (s.server.serve (request a c uri)).1 with
    | error f => rfl
    | ok decoded => simp

theorem meet_of_resolve_error
    {f : Fault}
    (hresolve : a.base.resolve c.href = .error f)
    (v : Server) :
    meet a c v = (.error f, v) := by
  simp [meet, perform, hresolve]

theorem server_meet_of_resolve
    {uri : Uri}
    (hresolve : a.base.resolve c.href = .ok uri)
    (v : Server) :
    (meet a c v).2 = (v.serve (request a c uri)).2 := by
  simp only [meet, perform, hresolve, server_dump]
  cases decode a.timeout (v.serve (request a c uri)).1 with
  | error f => rfl
  | ok decoded => simp

/-- The server gets the requests of a call as long as it can be reached, which no call
changes. -/
theorem received_meet
    (a : Account)
    (c : Call)
    (v : Server) :
    (meet a c v).2.received = v.received ++ (if v.reachable then requests a c else []) ∧
      (meet a c v).2.reachable = v.reachable := by
  unfold requests
  cases hresolve : a.base.resolve c.href with
  | error f =>
    rw [meet_of_resolve_error hresolve]
    simp
  | ok uri =>
    rw [server_meet_of_resolve hresolve, Server.serve]
    cases hreachable : v.reachable with
    | false => simp [hreachable]
    | true => cases v.replies <;> simp

/-- A call with an address uses up a reply of a server that can be reached. -/
theorem replies_perform
    {uri : Uri}
    (hresolve : a.base.resolve c.href = .ok uri)
    (hreachable : s.server.reachable = true) :
    (perform a c s).2.server.reachable = true ∧
      (perform a c s).2.server.replies = s.server.replies.tail := by
  rw [(perform_meets a c s).2]
  refine ⟨(received_meet a c s.server).2.trans hreachable, ?_⟩
  rw [server_meet_of_resolve hresolve, Server.replies_serve hreachable]

/-- An exchange sends one request, to a server that can be reached and an href that has
an address, or none at all. -/
theorem received_perform
    (a : Account)
    (c : Call)
    (s : Session) :
    ∃ sent, (perform a c s).2.server.received = s.server.received ++ sent ∧
      sent <+: requests a c := by
  rw [(perform_meets a c s).2, (received_meet a c s.server).1]
  cases s.server.reachable with
  | true => exact ⟨requests a c, rfl, List.prefix_refl _⟩
  | false => exact ⟨[], rfl, List.nil_prefix⟩

theorem length_requests_le
    (a : Account)
    (c : Call) :
    (requests a c).length ≤ 1 := by
  unfold requests
  split
  · exact Nat.le_refl 1
  · exact Nat.zero_le 1

theorem meet_unreachable
    {v : Server}
    (hreachable : v.reachable = false)
    (a : Account)
    (c : Call) :
    ∃ f, (meet a c v).1 = .error f := by
  cases hresolve : a.base.resolve c.href with
  | error f => exact ⟨f, by rw [meet_of_resolve_error hresolve]⟩
  | ok uri =>
    refine ⟨.connection, ?_⟩
    simp [meet, perform, hresolve, Server.serve, hreachable, decode]

theorem outcome_answer
    {uri : Uri}
    {answer : Answer}
    {bytes : Bytes}
    (hresolve : a.base.resolve c.href = .ok uri)
    (hcode : Http.isSuccess answer.code = true)
    (hbody : answer.body.decode? answer.headers.codings = some bytes) :
    outcome a c (.answer answer) =
      (receive bytes).map fun body =>
        ⟨answer.code, answer.headers.decoded answer.headers.codings, body⟩ := by
  have hdecode : decode a.timeout (.answer answer) =
      .ok (answer.code, answer.headers.decoded answer.headers.codings, bytes) := by
    simp [decode, hbody]
  rw [outcome, hresolve, hdecode]
  simp [bind, Except.bind, hcode]

/-- A receipt is an answer that reported success and could be read. -/
theorem outcome_eq_ok
    {reply : Reply}
    {receipt : Receipt}
    (hdone : outcome a c reply = .ok receipt) :
    ∃ uri answer bytes, a.base.resolve c.href = .ok uri ∧ reply = .answer answer ∧
      Http.isSuccess answer.code = true ∧
      answer.body.decode? answer.headers.codings = some bytes ∧
      receive bytes = .ok receipt.body ∧ receipt.code = answer.code ∧
      receipt.headers = answer.headers.decoded answer.headers.codings := by
  cases hresolve : a.base.resolve c.href with
  | error f =>
    rw [outcome, hresolve] at hdone
    cases hdone
  | ok uri =>
    cases reply with
    | answer answer =>
      cases hbody : answer.body.decode? answer.headers.codings with
      | none =>
        rw [outcome, hresolve] at hdone
        simp [bind, Except.bind, decode, hbody] at hdone
      | some bytes =>
        cases hcode : Http.isSuccess answer.code with
        | false =>
          rw [outcome, hresolve] at hdone
          simp [bind, Except.bind, decode, hbody, hcode, throw, throwThe, MonadExceptOf.throw]
            at hdone
        | true =>
          rw [outcome_answer hresolve hcode hbody] at hdone
          cases hreceived : receive bytes with
          | error f =>
            rw [hreceived] at hdone
            cases hdone
          | ok received =>
            rw [hreceived] at hdone
            cases hdone
            exact ⟨uri, answer, bytes, rfl, rfl, hcode, hbody, hreceived, rfl, rfl⟩
    | _ =>
      rw [outcome, hresolve] at hdone
      cases hdone

theorem mem_requests
    {r : Request} :
    r ∈ requests a c ↔ ∃ uri, a.base.resolve c.href = .ok uri ∧ r = request a c uri := by
  unfold requests
  cases a.base.resolve c.href with
  | error f => simp
  | ok uri => simp

/-- Every request shows the credentials, wherever it goes. -/
theorem credentials_mem
    {r : Request}
    {credentials : Credentials}
    (hr : r ∈ requests a c)
    (hcredentials : a.credentials = some credentials) :
    credentials.field ∈ r.headers.fields := by
  obtain ⟨uri, -, rfl⟩ := mem_requests.1 hr
  rw [request, hcredentials]
  exact List.mem_cons_self

/-- A receipt comes from the first answer that is left, for a request of its own. -/
theorem perform_eq_ok
    {receipt : Receipt}
    (hdone : (perform a c s).1 = .ok receipt) :
    ∃ uri answer replies, a.base.resolve c.href = .ok uri ∧ s.server.reachable = true ∧
      s.server.replies = .answer answer :: replies ∧ Http.isSuccess answer.code = true ∧
      receipt.headers = answer.headers.decoded answer.headers.codings ∧
      (perform a c s).2.server.received = s.server.received ++ [request a c uri] := by
  rw [perform_fst] at hdone
  obtain ⟨uri, answer, bytes, hresolve, hnext, hcode, -, -, -, hheaders⟩ := outcome_eq_ok hdone
  obtain ⟨hreachable, replies, hreplies⟩ := Server.replies_of_next hnext hcode
  refine ⟨uri, answer, replies, hresolve, hreachable, hreplies, hcode, hheaders, ?_⟩
  rw [(perform_meets a c s).2, (received_meet a c s.server).1, hreachable, if_pos rfl, requests,
    hresolve]

/-- Five bytes of a written document show its declaration. -/
theorem isDeclared_of_isPrefix
    {e : Xml.Element}
    {cut : Bytes}
    (hcut : cut <+: Utf8.encode e.document)
    (hlength : 5 ≤ cut.length) :
    Xml.isDeclared cut = true := by
  have hmark : Utf8.encode "<?xml" <+: Utf8.encode e.document := by
    rw [Xml.Element.document, Utf8.encode_append]
    exact List.prefix_append_of_prefix (by decide +kernel)
  obtain ⟨rest, rfl⟩ : Utf8.encode "<?xml" <+: cut :=
    List.prefix_of_prefix_length_le hmark hcut hlength
  rfl

theorem isDeclared_document
    (e : Xml.Element) :
    Xml.isDeclared (Utf8.encode e.document) = true := by
  apply isDeclared_of_isPrefix (List.prefix_refl _)
  rw [Xml.Element.document, Utf8.encode_append, List.length_append]
  exact Nat.le_add_right_of_le (by decide)

/-- A written document is received as the element that was written, every name in its
namespace. -/
theorem receive_document
    {e : Xml.Element}
    (hjoined : e.content.isJoined = true)
    (hwf : e.isWellFormed = true) :
    receive (Utf8.encode e.document) = .ok (.document e.placed) := by
  rw [receive, isDeclared_document, if_pos rfl, Xml.parse_document hjoined hwf]

/-- An answer that reports success and can be read becomes a receipt. -/
theorem perform_answer
    {uri : Uri}
    {answer : Answer}
    {replies : List Reply}
    {bytes : Bytes}
    {received : Received}
    (hresolve : a.base.resolve c.href = .ok uri)
    (hreachable : s.server.reachable = true)
    (hreplies : s.server.replies = .answer answer :: replies)
    (hcode : Http.isSuccess answer.code = true)
    (hbody : answer.body.decode? answer.headers.codings = some bytes)
    (hreceived : receive bytes = .ok received) :
    (perform a c s).1 =
      .ok ⟨answer.code, answer.headers.decoded answer.headers.codings, received⟩ := by
  rw [perform_fst, Server.next_of_replies hreachable hreplies,
    outcome_answer hresolve hcode hbody, hreceived]
  rfl

/-- Whether the next exchange in a session gets a successful answer with this body, under
whatever codings it travelled. -/
def Brings
    (s : Session)
    (body : Bytes) : Prop :=
  ∃ answer later,
    s.server.reachable = true ∧ s.server.replies = .answer answer :: later ∧
      Http.isSuccess answer.code = true ∧
      answer.body.decode? answer.headers.codings = some body

/-- What such an answer leads to depends on its body. -/
theorem perform_of_brings
    {body : Bytes}
    (hbrings : Brings s body)
    (a : Account)
    (c : Call) :
    ∃ code headers, (perform a c s).1 =
      a.base.resolve c.href >>= fun _ =>
        (receive body).map fun received => ⟨code, headers, received⟩ := by
  obtain ⟨answer, later, hreachable, hreplies, hcode, hbody⟩ := hbrings
  refine ⟨answer.code, answer.headers.decoded answer.headers.codings, ?_⟩
  rw [perform_fst, Server.next_of_replies hreachable hreplies]
  cases hresolve : a.base.resolve c.href with
  | error f =>
    rw [outcome, hresolve]
    rfl
  | ok uri => exact outcome_answer hresolve hcode hbody

/-- The headers of the exchange before are forgotten. -/
theorem perform_forgets
    (a : Account)
    (c : Call)
    (s : Session) :
    perform a c { s with lastHeaders := {} } = perform a c s := by
  rfl

theorem dump_after
    (a : Account)
    (entry : Entry)
    (s : Session)
    (received : List Request)
    (log : List Entry) :
    dump a entry (s.after received log) = (dump a entry s).after received log := by
  unfold dump
  split
  · exact s.note_after received log [entry]
  · rfl

theorem conclude_after
    (c : Call)
    (uri : Uri)
    (code : Nat)
    (h : Http.Headers)
    (body : Bytes)
    (s : Session)
    (received : List Request)
    (log : List Entry) :
    conclude c uri code h body (s.after received log) =
      ((conclude c uri code h body s).1, (conclude c uri code h body s).2.after received log) := by
  unfold conclude
  split <;> rfl

/-- An exchange does not look at what was before it, and adds to it. -/
theorem perform_after
    (a : Account)
    (c : Call)
    (s : Session)
    (received : List Request)
    (log : List Entry) :
    perform a c (s.after received log) =
      ((perform a c s).1, (perform a c s).2.after received log) := by
  have hforgotten :
      { s.after received log with lastHeaders := {} } =
        Session.after { s with lastHeaders := {} } received log := by
    rfl
  have hserver : ∀ (t : Session) (server : Server),
      { t.after received log with server := server.after received } =
        Session.after { t with server } received log := by
    intro t server
    rfl
  unfold perform
  rw [hforgotten]
  cases a.base.resolve c.href with
  | error f => rfl
  | ok uri =>
    have hreached : ∀ t : Session, (t.after received log).server = t.server.after received := by
      intro t
      rfl
    simp only [dump_after, hreached, Server.serve_after, hserver]
    cases decode a.timeout
        ((dump a (sentEntry c uri) { s with lastHeaders := {} }).server.serve
          (request a c uri)).1 with
    | error f => rfl
    | ok decoded => exact conclude_after _ _ _ _ _ _ _ _

end Exchange
end PimDav
