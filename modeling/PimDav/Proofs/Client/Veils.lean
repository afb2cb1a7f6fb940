import PimDav.Proofs.Client.Twins

/-!
# Work behind a veil

Somebody who looks on may be kept from seeing something: which credentials an account has,
whether it dumps its exchanges, parts of the requests, some entries of the log.  If one
exchange behind such a veil is the exchange of the account as it seems to be, then so is
all work: the same results are handed out, and the onlooker cannot tell the two apart.

The main statement is about dumps.  Whether they are on decides which entries about the wire
are in the log, and nothing else.
-/

namespace PimDav

open Http (Call Headers Request)

/-- What is kept from an onlooker, and what is seen in its place. -/
structure Veil where
  credentials : Option Credentials → Option Credentials := id
  dumps : Bool → Bool := id
  request : Request → Request := id
  /-- Whether an entry of the log is seen. -/
  shows : Entry → Bool := fun _ => true
  request_eq : ∀ (a : Account) (c : Call) (uri : Uri),
    request (Exchange.request a c uri) =
      Exchange.request { a with credentials := credentials a.credentials } c uri
  shows_offWire : ∀ entry : Entry, entry.IsOffWire → shows entry = true
  /-- Entries about the wire are seen as far as they seem to be written. -/
  shows_wire : ∀ (on : Bool) (entry : Entry), ¬ entry.IsOffWire → (on && shows entry) = dumps on

namespace Veil

variable (v : Veil)

def account (a : Account) : Account :=
  { a with credentials := v.credentials a.credentials, dumps := v.dumps a.dumps }

def server (w : Server) : Server :=
  { w with received := w.received.map v.request }

def session (s : Session) : Session :=
  { s with server := v.server s.server, log := s.log.filter v.shows }

def desk (d : Desk) : Desk :=
  { d with account := v.account d.account }

def directive : Directive → Directive
  | .setDumps on => .setDumps (v.dumps on)
  | other => other

/-- Who looks through the veil. -/
def onlooker : Onlooker Request where
  request := v.request
  shows := v.shows

/-- An account behind a veil looks like the account that is seen. -/
theorem alike_account
    (a : Account) :
    (v.account a).Alike .ofAll v.onlooker a where
  base := rfl
  timeout := rfl
  request := fun c uri => (v.request_eq a c uri).symm
  offWire := fun entry hentry => (v.shows_offWire entry hentry).symm
  wire := by
    intro entry hentry
    exact (Bool.and_true _).trans (v.shows_wire a.dumps entry hentry).symm

theorem alike_session
    (s : Session) :
    Session.Alike .ofAll v.onlooker True (v.session s) s where
  reachable := rfl
  replies := rfl
  received := List.map_id _
  log := List.filter_eq_self.2 fun _ _ => rfl
  headers := fun _ => rfl

/-- What looks like a session behind a veil is that session as it is seen. -/
theorem eq_session_of_alike
    {s t : Session}
    (hst : Session.Alike .ofAll v.onlooker True s t) :
    s = v.session t := by
  obtain ⟨⟨reachable, replies, received⟩, headers, log⟩ := s
  obtain ⟨⟨reachable', replies', received'⟩, headers', log'⟩ := t
  obtain ⟨rfl, rfl, hreceived, hlog, hheaders⟩ := hst
  obtain rfl : headers = headers' := hheaders trivial
  have hall : log.filter (fun _ => true) = log := List.filter_eq_self.2 fun _ _ => rfl
  obtain rfl : received = received'.map v.request := (List.map_id _).symm.trans hreceived
  obtain rfl : log = log'.filter v.shows := hall.symm.trans hlog
  rfl

/-- A directive that is obeyed behind a veil, as long as it sets nothing that is veiled. -/
theorem obey_session_of_configured
    {c : Directive}
    {d : Desk}
    (hset : c.configured (v.account d.account) = v.account (c.configured d.account))
    (s : Session) :
    (v.desk d).obey (v.session s) c =
      ((d.obey s c).1, v.desk (d.obey s c).2.1, v.session (d.obey s c).2.2) := by
  obtain ⟨hresult, hlater⟩ :=
    obey_alike (d := v.desk d) (e := d) (v.alike_account d.account) (fun _ _ => rfl)
      (v.alike_session s)
  have hdesk : ((v.desk d).obey (v.session s) c).2.1 = v.desk (d.obey s c).2.1 := by
    rw [Desk.desk_obey, Desk.desk_obey, hresult]
    exact congrArg (fun account : Account =>
      ({ d with account, items := c.added (d.obey s c).1 ++ d.items } : Desk)) hset
  exact Prod.ext hresult (Prod.ext hdesk (v.eq_session_of_alike hlater))

theorem obey_session
    (d : Desk)
    (s : Session)
    (c : Directive) :
    (v.desk d).obey (v.session s) (v.directive c) =
      ((d.obey s c).1, v.desk (d.obey s c).2.1, v.session (d.obey s c).2.2) := by
  cases c with
  | setDumps on => rfl
  | _ => exact v.obey_session_of_configured rfl s

end Veil

namespace Desk

/-- What each of several directives hands out, obeyed one after another in a session, and
the session after it. -/
def course : Desk → Session → List Directive → List (Result × Session)
  | _, _, [] => []
  | d, s, c :: work =>
    let (result, d, s) := d.obey s c
    (result, s) :: d.course s work

/-- Work behind a veil is the work of the desk that is seen. -/
theorem course_session
    (v : Veil)
    (d : Desk)
    (s : Session)
    (work : List Directive) :
    (v.desk d).course (v.session s) (work.map v.directive) =
      (d.course s work).map fun after => (after.1, v.session after.2) := by
  induction work generalizing d s with
  | nil => rfl
  | cons c work ih =>
    rw [List.map_cons, course, course, v.obey_session, List.map_cons]
    exact congrArg (List.cons _) (ih (d.obey s c).2.1 (d.obey s c).2.2)

end Desk

/-! Dumps. -/

/-- The veil behind which no dumps are seen. -/
def Veil.overDumps : Veil where
  dumps := fun _ => false
  shows := fun entry => entry.origin != .wire
  request_eq := fun _ _ _ => rfl
  shows_offWire := fun _ hentry => bne_iff_ne.2 hentry
  shows_wire := by
    intro on entry hentry
    have hwire : entry.origin = .wire := Decidable.not_not.1 hentry
    rw [hwire]
    exact Bool.and_false on

namespace Directive

/-- The directive that leaves dumps off. -/
def silenced : Directive → Directive
  | setDumps _ => setDumps false
  | other => other

end Directive

namespace Session

/-- The session as it is remembered without the entries about the wire. -/
def withoutDumps (s : Session) : Session :=
  { s with log := s.log.filter (·.origin != .wire) }

end Session

namespace Desk

def withDumps
    (d : Desk)
    (on : Bool) : Desk :=
  { d with account := { d.account with dumps := on } }

/-- Dumps add entries about the wire to the log and do nothing else: after each directive
of any work, what is handed out, the requests, the replies that are left and the headers
that are remembered are the same without them. -/
theorem dumps_only_add_to_log
    (d : Desk)
    (s : Session)
    (work : List Directive) :
    (d.withDumps false).course s.withoutDumps (work.map Directive.silenced) =
      ((d.withDumps true).course s work).map fun after => (after.1, after.2.withoutDumps) := by
  have hdirective : Directive.silenced = Veil.overDumps.directive := by
    funext c
    cases c <;> rfl
  have hsession : Session.withoutDumps = Veil.overDumps.session := by
    funext t
    exact congrArg (fun received =>
      ({ t.withoutDumps with server := { t.server with received } } : Session))
      (List.map_id t.server.received).symm
  rw [hdirective, hsession]
  exact course_session Veil.overDumps (d.withDumps true) s work

end Desk
end PimDav
