import PimDav.Kind
import PimDav.Session

/-!
# What a client notes
-/

namespace PimDav
namespace Client

def entry
    (level : Level)
    (message : String)
    (details : List (String × String)) : Entry :=
  { level, origin := .client, message, details }

/-- The complaint about a call that failed. -/
def complaint
    (message : String)
    (details : List (String × String))
    (f : Fault) : Entry :=
  entry .error message (details ++ [("err", f.message)])

end Client
end PimDav
