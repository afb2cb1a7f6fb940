import PimDav.Fault
import PimDav.Http.Coding
import PimDav.Uri
import PimDav.Xml.Element

/-!
# Messages

What a client asks for, what it sends, and what may come back.
-/

namespace PimDav
namespace Http

/-- What a client asks for: an href, before it is resolved, and the headers and
the body that the caller gives. -/
structure Call where
  method : String
  href : String
  headers : Headers := {}
  body : Option Bytes := none
  deriving DecidableEq, Repr

/-- The field with a name in any case and a value. -/
def Field.read
    (name : String)
    (value : Bytes) : Except Fault Field :=
  if !isToken name then .error .badRequest
  else if !Field.isValue value then .error .badHeader
  else .ok ⟨Text.lower name, value⟩

/-- Headers given as names and values; the first one that is not proper decides. -/
def Headers.read (pairs : List (String × Bytes)) : Except Fault Headers :=
  (pairs.mapM fun pair => Field.read pair.1 pair.2).map Headers.mk

/-- A call with a method and headers of the caller's own. -/
def Call.read
    (method href : String)
    (pairs : List (String × Bytes))
    (body : Option Bytes) : Except Fault Call :=
  if isToken method then
    (Headers.read pairs).map fun headers => { method, href, headers, body }
  else .error .badRequest

/-- A message to the server as it travels. -/
structure Request where
  method : String
  uri : Uri
  headers : Headers
  body : Bytes
  deriving DecidableEq, Repr

structure Answer where
  code : Nat := 200
  headers : Headers := {}
  body : CodedBody := .plain []
  deriving DecidableEq, Repr

/-- What comes back for a request. -/
inductive Reply where
  | answer (a : Answer)
  /-- No answer, or nothing that could be one. -/
  | noAnswer
  /-- An answer whose body ends too early. -/
  | cutShort
  /-- Nothing more within the limit on the time. -/
  | stalled
  deriving DecidableEq, Repr

/-- A body as the client hands it out. -/
inductive Received where
  | document (root : Xml.Element)
  | bytes (raw : Bytes)
  deriving DecidableEq, Repr

/-- A successful answer after it was decoded and read. -/
structure Receipt where
  code : Nat
  headers : Headers
  body : Received
  deriving DecidableEq, Repr

namespace Receipt

/-- The responses of a multistatus answer, in document order. -/
def responses (r : Receipt) : List Xml.Element :=
  match r.body with
  | .document root => root.descendants "response"
  | .bytes _ => []

end Receipt

/-- How far below a collection a request reaches. -/
inductive Depth where
  | zero
  | one
  | infinity
  deriving DecidableEq, Repr

namespace Depth

def every : List Depth :=
  [zero, one, infinity]

def text : Depth → String
  | zero => "0"
  | one => "1"
  | infinity => "infinity"

end Depth
end Http
end PimDav
