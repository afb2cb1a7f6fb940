import PimDav.Config
import PimDav.Duration
import PimDav.Href
import PimDav.Http.Field
import PimDav.Text.Base64

/-!
# Accounts

An account is a base address with what is needed to talk to the server there:
credentials, a limit on the time of an exchange, and whether exchanges are
dumped into the log.
-/

namespace PimDav

structure Credentials where
  user : String
  password : String
  deriving DecidableEq, Repr

namespace Credentials

/-- The field that shows the credentials to the server. -/
def field (c : Credentials) : Http.Field :=
  let token := Base64.encode (Utf8.encode (c.user ++ ":" ++ c.password))
  .ofText "authorization" ("Basic " ++ String.ofList token)

end Credentials

structure Account where
  base : Uri
  credentials : Option Credentials := none
  timeout : Duration := .ofSeconds 20
  dumps : Bool := false
  deriving DecidableEq, Repr

namespace Account

/-- The account at a base, which has to be an absolute address. -/
def atBase
    (base : String)
    (credentials : Option Credentials) : Except Fault Account :=
  match Uri.read base with
  | .ok uri => .ok { base := uri, credentials }
  | .error .relative => .error (.badUri (some ("base URI must be absolute: " ++ base)))
  | .error .malformed => .error (.badUri none)

def ofConfig (c : Config) : Except Fault Account :=
  (atBase c.uri (some ⟨c.username, c.password⟩)).map fun account =>
    { account with timeout := .ofSeconds c.timeoutSeconds, dumps := c.debug }

/-- The form for people, which says nothing about the credentials. -/
def described (a : Account) : String :=
  "Transport \x7b base: " ++ a.base.text ++ ", timeout: " ++ a.timeout.text ++
    ", debug: " ++ (if a.dumps then "true" else "false") ++ ", .. \x7d"

/-- The form for people of a client of the account. -/
def describedClient (a : Account) : String :=
  "DavClient \x7b transport: " ++ a.described ++ " \x7d"

end Account
end PimDav
