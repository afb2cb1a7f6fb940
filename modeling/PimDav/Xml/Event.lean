import PimDav.Xml.Binding
import PimDav.Xml.Token

/-!
# Events

Tokens become events once their names are known to fit: a closing tag has to
repeat the name of the innermost open element, and the names of elements belong
to the namespaces that are in force.  Text, references and sections all become
text.  Attributes are left as written, because a fault in them counts only when
the element is made.
-/

namespace PimDav
namespace Xml

inductive Event where
  | start (tag : RawTag) (space : Option Bytes)
  /-- An element that opens and closes at once. -/
  | empty (tag : RawTag) (space : Option Bytes)
  | finish
  | text (value : String)
  | aside
  deriving DecidableEq, Repr

/-- An open element: its name and the bindings in force inside it. -/
structure Scope where
  name : Bytes
  bindings : List Binding
  deriving DecidableEq, Repr

namespace Event

/-- The bindings in force inside the innermost of the open elements. -/
def inForce : List Scope → List Binding
  | [] => Binding.builtin
  | scope :: _ => scope.bindings

/-- The name that a closing tag repeats: trailing blanks do not count, unless there
is nothing else. -/
def closingName (raw : Bytes) : Bytes :=
  let name := (raw.reverse.dropWhile Text.isMarkupBlank).reverse
  if name.isEmpty then raw else name

/-- Whether a tag closes at once, and what it says apart from that. -/
def opensAndCloses (raw : Bytes) : Bool × Bytes :=
  match raw.getLast? with
  | some 0x2F => (true, raw.dropLast)
  | _ => (false, raw)

/-- One token, with the open elements innermost first. -/
def step : List Scope → Token → Except Problem (List Scope × Event)
  | scopes, .text raw => .ok (scopes, .text (Utf8.decodeLossy raw))
  | scopes, .reference raw => .ok (scopes, .text (referenceText (Utf8.decodeLossy raw)))
  | scopes, .cdata raw => .ok (scopes, .text (Utf8.decodeLossy raw))
  | scopes, .aside => .ok (scopes, .aside)
  | scopes, .opening raw => do
    let (closesAtOnce, said) := opensAndCloses raw
    let tag := RawTag.ofBytes said
    let bindings ← Binding.declare (inForce scopes) tag
    let space := Binding.resolve bindings tag.name
    if closesAtOnce then return (scopes, .empty tag space)
    else return (⟨tag.name, bindings⟩ :: scopes, .start tag space)
  | [], .closing _ => .error .brokenMarkup
  | scope :: scopes, .closing raw =>
    if closingName raw == scope.name then .ok (scopes, .finish) else .error .brokenMarkup

/-- The events of a document. -/
def trail (bytes : Bytes) : Trail Event :=
  (Token.trail bytes).through step []

end Event
end Xml
end PimDav
