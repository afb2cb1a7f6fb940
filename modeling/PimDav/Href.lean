import PimDav.Fault
import PimDav.Uri

/-!
# Hrefs

A base address has a root path, under which everything of an account lives.  An
href is kept relative to the root; where a server has to see it, the root goes
in front of it, but never twice.
-/

namespace PimDav
namespace Uri

/-- The path of a base with exactly the slash at its end that it may lack. -/
def root (base : Uri) : String :=
  if Text.endsWith "/" base.path then base.path else base.path ++ "/"

/-- Whether a text is written as an address of the web. -/
def isWebAddress (s : String) : Bool :=
  Text.beginsWith "http://" s || Text.beginsWith "https://" s

/-- Whether a path is the root, with or without its slash. -/
def isRoot
    (base : Uri)
    (path : String) : Bool :=
  path == base.root || path == Text.dropTrailing '/' base.root

/-- The path of an href: an address of the web is reduced to its path. -/
def hrefPath (href : String) : String :=
  if isWebAddress href then
    match read href with
    | .ok uri => uri.path
    | .error _ => href
  else href

/-- An href of the server as it is kept. The root becomes the empty text, and what
lies outside the root stays as it is. -/
def relative
    (base : Uri)
    (href : String) : String :=
  let path := hrefPath href
  if base.isRoot path then "" else (Text.after? base.root path).getD path

/-- What an href adds to the root, without leading slashes. -/
def underRoot
    (base : Uri)
    (href : String) : String :=
  if base.isRoot href then ""
  else
    let rest :=
      if Text.beginsWith "/" href then (Text.after? base.root href).getD href else href
    Text.dropLeading '/' rest

/-- A kept href, or one of the server, as the server has to see it. -/
def absolute
    (base : Uri)
    (href : String) : String :=
  base.root ++ base.underRoot href

/-- The text of the target that an href names under a base. -/
def targetText
    (base : Uri)
    (href : String) : String :=
  let parts := Text.cut '?' href
  let rest := base.underRoot parts.1
  let path := if rest.isEmpty then base.path else base.root ++ rest
  path ++ ((parts.2.map ("?" ++ ·)).getD "")

/-- The address of an href: an address of the web stands for itself, and anything
else lies under the base. -/
def resolve
    (base : Uri)
    (href : String) : Except Fault Uri :=
  if isWebAddress href then
    match read href with
    | .ok uri => .ok uri
    | .error _ => .error (.badUri none)
  else
    match Target.read? (base.targetText href) with
    | some target => .ok { base with target }
    | none => .error (.badUri none)

/-- Where the principal of another user of the same server is found. -/
def principalOf
    (base : Uri)
    (email : String) : String :=
  base.root ++ "principals/user/" ++ email

end Uri
end PimDav
