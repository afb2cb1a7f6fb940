import PimDav.Http.Message

/-!
# Sessions

A session is what the work of a client leaves behind: the server with the
replies it still has and the requests it got, the headers of the last exchange,
and the log.
-/

namespace PimDav

inductive Level where
  | debug
  | warn
  | error
  deriving DecidableEq, Repr

/-- The part of the client that writes an entry. -/
inductive Origin where
  | wire
  | discovery
  | client
  deriving DecidableEq, Repr

/-- An entry of the log, with named details. -/
structure Entry where
  level : Level
  origin : Origin
  message : String
  details : List (String × String) := []
  deriving DecidableEq, Repr

/-- A server with the replies that it gives one after another. One that cannot be
reached gets no request and gives no reply. -/
structure Server where
  reachable : Bool := true
  replies : List Http.Reply := []
  received : List Http.Request := []
  deriving DecidableEq, Repr

namespace Server

/-- What a server answers that has no reply left. -/
def notFound : Http.Answer where
  code := 404
  headers := ⟨[.ofText "content-length" "0"]⟩

/-- One request and the reply to it. -/
def serve
    (s : Server)
    (r : Http.Request) : Http.Reply × Server :=
  if s.reachable then
    match s.replies with
    | reply :: replies => (reply, { s with replies, received := s.received ++ [r] })
    | [] => (.answer notFound, { s with received := s.received ++ [r] })
  else (.noAnswer, s)

end Server

structure Session where
  server : Server := {}
  /-- The headers of the last exchange, empty unless it was a success. -/
  lastHeaders : Http.Headers := {}
  log : List Entry := []
  deriving DecidableEq, Repr

namespace Session

/-- The session with more entries at the end of the log. -/
def note
    (s : Session)
    (entries : List Entry) : Session :=
  { s with log := s.log ++ entries }

@[simp] theorem note_nil
    (s : Session) :
    s.note [] = s := by
  simp [note]

@[simp] theorem note_note
    (s : Session)
    (first later : List Entry) :
    (s.note first).note later = s.note (first ++ later) := by
  simp [note]

end Session
end PimDav
