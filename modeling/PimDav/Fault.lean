import PimDav.Duration
import PimDav.Http.Status
import PimDav.Xml.Trail

/-!
# Faults

Everything that can go wrong in the work for a caller, with the sentence that
reports it.  A property that a server does not have is no fault.
-/

namespace PimDav

inductive Fault where
  /-- The server answered, but not with success. -/
  | status (method uri : String) (code : Nat)
  | connection
  | timeout (limit : Duration)
  /-- The body of an answer cannot be read. -/
  | body (reason : Option String)
  /-- A document cannot be read. -/
  | markup (problem : Xml.Problem)
  | unknownKind (name : String)
  /-- There is nothing to store. -/
  | emptyItem (href : String)
  | badUri (reason : Option String)
  | badHeader
  | badRequest
  deriving DecidableEq, Repr

namespace Fault

/-- Whether the exchange with the server itself failed. -/
def isTransport : Fault → Bool
  | status .. => true
  | connection => true
  | timeout _ => true
  | body _ => true
  | _ => false

/-- The code of the answer, when there was one. -/
def code? : Fault → Option Nat
  | status _ _ code => some code
  | _ => none

/-- A reason after a colon; without a reason the sentence ends at the colon. -/
def because
    (what : String)
    (reason : Option String) : String :=
  what ++ ":" ++ ((reason.map (" " ++ ·)).getD "")

/-- The sentence that reports a fault. -/
def message : Fault → String
  | status method address code =>
    method ++ " " ++ address ++ " failed with status " ++ toString code ++ " " ++ Http.reason code
  | connection => because "connection failed" none
  | timeout limit => "request timed out after " ++ limit.text
  | body reason => because "failed to read response body" reason
  | markup problem => because "malformed XML in response" problem.words?
  | unknownKind name => because "unknown component kind" (some name)
  | emptyItem href => "cannot PUT an empty object at " ++ href
  | badUri reason => because "invalid URI" reason
  | badHeader => because "invalid header value" none
  | badRequest => because "invalid request" none

end Fault
end PimDav
