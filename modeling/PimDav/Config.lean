import PimDav.Json
import PimDav.Text.Quoted

/-!
# Settings

The settings of one account, as they are stored.  The password is read but never
written.
-/

namespace PimDav

structure Config where
  uri : String
  username : String
  password : String := ""
  timeoutSeconds : Nat := 20
  /-- Whether every exchange is dumped into the log. -/
  debug : Bool := false
  deriving DecidableEq, Repr

namespace Config

/-- A value for each setting, as far as one is given. -/
structure Draft where
  uri : Option Json := none
  username : Option Json := none
  password : Option Json := none
  timeoutSeconds : Option Json := none
  debug : Option Json := none

def text? : Json → Option String
  | .text s => s
  | _ => none

/-- A number of sixty-four bits. -/
def seconds? : Json → Option Nat
  | .whole n => if n < UInt64.size then some n else none
  | _ => none

def flag? : Json → Option Bool
  | .bool b => some b
  | _ => none

/-- The value of a setting that may be missing, but not be of another type. -/
def given?
    {α : Type}
    (read : Json → Option α)
    (default : α) : Option Json → Option α
  | none => some default
  | some j => read j

namespace Draft

/-- One more member. A setting may not be given twice, its name has to be text,
and names that are no setting are passed over. -/
def set?
    (d : Draft)
    (member : Option String × Json) : Option Draft :=
  let value := some member.2
  match member.1 with
  | none => none
  | some "uri" => if d.uri.isSome then none else some { d with uri := value }
  | some "username" => if d.username.isSome then none else some { d with username := value }
  | some "password" => if d.password.isSome then none else some { d with password := value }
  | some "timeout_secs" =>
    if d.timeoutSeconds.isSome then none else some { d with timeoutSeconds := value }
  | some "debug" => if d.debug.isSome then none else some { d with debug := value }
  | some _ => some d

/-- The settings in the order of their declaration. -/
def ofItems? : List Json → Option Draft
  | [] => some {}
  | [a] => some { uri := a }
  | [a, b] => some { uri := a, username := b }
  | [a, b, c] => some { uri := a, username := b, password := c }
  | [a, b, c, d] => some { uri := a, username := b, password := c, timeoutSeconds := d }
  | [a, b, c, d, e] =>
    some { uri := a, username := b, password := c, timeoutSeconds := d, debug := e }
  | _ => none

def finish? (d : Draft) : Option Config := do
  let uri ← d.uri.bind text?
  let username ← d.username.bind text?
  let password ← given? text? "" d.password
  let timeoutSeconds ← given? seconds? 20 d.timeoutSeconds
  let debug ← given? flag? false d.debug
  return { uri, username, password, timeoutSeconds, debug }

end Draft

/-- The settings that a text holds, by name or in order. -/
def read? (s : String) : Option Config :=
  (Json.read? s).bind fun
    | .object members => (members.foldlM Draft.set? {}).bind Draft.finish?
    | .array items => (Draft.ofItems? items).bind Draft.finish?
    | _ => none

/-- The stored form. -/
def written (c : Config) : String :=
  "\x7b\"uri\":" ++ Json.written c.uri ++ ",\"username\":" ++ Json.written c.username ++
    ",\"timeout_secs\":" ++ toString c.timeoutSeconds ++
    ",\"debug\":" ++ (if c.debug then "true" else "false") ++ "\x7d"

/-- The form for people, in which the password is blacked out. -/
def described (c : Config) : String :=
  "DavConfig \x7b uri: " ++ Text.quoted c.uri ++ ", username: " ++ Text.quoted c.username ++
    ", password: \"[REDACTED]\", timeout_secs: " ++ toString c.timeoutSeconds ++
    ", debug: " ++ (if c.debug then "true" else "false") ++ " \x7d"

end Config
end PimDav
