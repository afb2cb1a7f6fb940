import PimDav.Xml.Event

/-!
# Documents

The tree of a document is built from its events: the open elements wait in a
stack, innermost first, and a finished element goes to the one it was opened in
or becomes the root.  Text outside the root is dropped.
-/

namespace PimDav
namespace Xml

/-- A tree in the making. -/
structure Builder where
  stack : List Element := []
  root : Option Element := none
  deriving DecidableEq, Repr

namespace Builder

/-- A finished element finds its place. A second root is one too many. -/
def attach
    (b : Builder)
    (e : Element) : Except Problem Builder :=
  match b.stack, b.root with
  | parent :: outer, _ => .ok { b with stack := parent.child e :: outer }
  | [], none => .ok { b with root := some e }
  | [], some _ => .error .severalRoots

def step
    (b : Builder) : Event → Except Problem Builder
  | .start tag space => do
    let tag ← tag.read space
    return { b with stack := { tag } :: b.stack }
  | .empty tag space => do
    let tag ← tag.read space
    b.attach { tag }
  | .finish =>
    match b.stack with
    | e :: outer => { b with stack := outer }.attach e
    | [] => .error .unbalanced
  | .text s =>
    match b.stack with
    | e :: outer => .ok { b with stack := e.text s :: outer }
    | [] => .ok b
  | .aside => .ok b

/-- The root, once every element is closed. -/
def finish (b : Builder) : Except Problem Element :=
  if b.stack.isEmpty then
    match b.root with
    | some root => .ok root
    | none => .error .noRoot
  else .error .unfinished

end Builder

/-- The tree of a trail of events. Its fault counts after all its events. -/
def build (events : Trail Event) : Except Problem Element := do
  let b ← events.items.foldlM Builder.step {}
  match events.fault with
  | some p => throw p
  | none => b.finish

/-- The root element of a document. -/
def parse (bytes : Bytes) : Except Problem Element :=
  build (Event.trail bytes)

/-- Whether a body begins with a declaration, after a byte order mark and blanks. -/
def isDeclared (bytes : Bytes) : Bool :=
  (Utf8.encode "<?xml").isPrefixOf ((withoutMark bytes).dropWhile Text.isBodyBlank)

end Xml
end PimDav
