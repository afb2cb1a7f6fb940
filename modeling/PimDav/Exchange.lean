import PimDav.Account
import PimDav.Session
import PimDav.Xml.Document
import PimDav.Xml.Writer

/-!
# Exchanges

An exchange is one request and its reply.  The headers of the last exchange are
forgotten first and kept again as soon as an answer reports success, even when
its body turns out to be unreadable.  Nothing is ever sent twice.
-/

namespace PimDav
namespace Exchange

open Http (Answer Call Field Headers Receipt Received Reply Request)

/-- The values of a name on lines of their own; credentials are blacked out. -/
def transcriptOfName
    (h : Headers)
    (name : String) : String :=
  let values := (h.all name).map fun f => f.text?.getD "<binary>"
  let shown := if name == "authorization" then "[REDACTED]" else "\n\t".intercalate values
  name ++ ": " ++ shown ++ "\n"

/-- A body for people: indented when it is a document, and else as it is. -/
def transcriptOfBody (body : Bytes) : String :=
  if Xml.isDeclared body then
    match Xml.parse body with
    | .ok root => root.indented
    | .error _ => Utf8.decodeLossy body
  else Utf8.decodeLossy body

/-- One side of an exchange for people: headers, an empty line and the body. -/
def transcript
    (h : Headers)
    (body : Bytes) : String :=
  let head := String.join (h.names.map (transcriptOfName h))
  if body.isEmpty then head else head ++ "\n" ++ transcriptOfBody body

/-- The headers of a request, apart from the credentials. A body is markup unless
the caller says otherwise. -/
def requestHeaders (c : Call) : Headers :=
  let typed :=
    if c.body.isSome then
      c.headers.addMissing (.ofText "content-type" "application/xml; charset=utf-8")
    else c.headers
  typed.withOffer

/-- The request that a call becomes; the credentials stand in front. -/
def request
    (a : Account)
    (c : Call)
    (uri : Uri) : Request where
  method := c.method
  uri := uri
  headers := ⟨(a.credentials.map Credentials.field).toList ++ (requestHeaders c).fields⟩
  body := c.body.getD []

/-- The answer that a reply holds, with the codings of its body undone. -/
def decode
    (timeout : Duration) : Reply → Except Fault (Nat × Headers × Bytes)
  | .answer answer =>
    let codings := answer.headers.codings
    match answer.body.decode? codings with
    | some body => .ok (answer.code, answer.headers.decoded codings, body)
    | none => .error (.body none)
  | .noAnswer => .error .connection
  | .cutShort => .error (.body none)
  | .stalled => .error (.timeout timeout)

/-- A body as it is handed out: only one with a declaration is read as markup. -/
def receive (body : Bytes) : Except Fault Received :=
  if Xml.isDeclared body then
    match Xml.parse body with
    | .ok root => .ok (.document root)
    | .error p => .error (.markup p)
  else .ok (.bytes body)

/-- The entry that shows a request. -/
def sentEntry
    (c : Call)
    (uri : Uri) : Entry where
  level := .debug
  origin := .wire
  message := "C: " ++ c.method ++ ": " ++ uri.text ++ "\n" ++
    transcript (requestHeaders c) (c.body.getD [])

/-- The entry that shows an answer. -/
def gotEntry
    (code : Nat)
    (h : Headers)
    (body : Bytes) : Entry where
  level := .debug
  origin := .wire
  message := "S: [" ++ toString code ++ "]\n" ++ transcript h body

/-- The session with an entry for the wire, if the account wants it dumped. -/
def dump
    (a : Account)
    (entry : Entry)
    (s : Session) : Session :=
  if a.dumps then s.note [entry] else s

/-- What a session makes of an answer. -/
def conclude
    (c : Call)
    (uri : Uri)
    (code : Nat)
    (h : Headers)
    (body : Bytes)
    (s : Session) : Except Fault Receipt × Session :=
  if Http.isSuccess code then
    ((receive body).map fun body => { code, headers := h, body }, { s with lastHeaders := h })
  else (.error (.status c.method uri.text code), s)

/-- One exchange. -/
def perform
    (a : Account)
    (c : Call)
    (s : Session) : Except Fault Receipt × Session :=
  let s := { s with lastHeaders := {} }
  match a.base.resolve c.href with
  | .error f => (.error f, s)
  | .ok uri =>
    let s := dump a (sentEntry c uri) s
    let (reply, server) := s.server.serve (request a c uri)
    let s := { s with server }
    match decode a.timeout reply with
    | .error f => (.error f, s)
    | .ok (code, h, body) => conclude c uri code h body (dump a (gotEntry code h body) s)

end Exchange
end PimDav
