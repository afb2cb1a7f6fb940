import PimDav.Xml.Attribute

/-!
# Namespaces

A tag may bind prefixes to namespaces for itself and for everything inside.  The
prefixes `xml` and `xmlns` are bound from the beginning and may not be bound to
anything else, nor any other prefix to their namespaces.
-/

namespace PimDav
namespace Xml

/-- A name bound to a namespace: a prefix, or nothing for the default. -/
structure Binding where
  named : Option Bytes
  space : Bytes
  deriving DecidableEq, Repr

namespace Binding

/-- The name of a namespace that markup keeps for itself, by its last part. -/
def reservedSpace (part : String) : Bytes :=
  Utf8.encode ("http" ++ "://www.w3.org/" ++ part)

def xmlSpace : Bytes :=
  reservedSpace "XML/1998/namespace"

def xmlnsSpace : Bytes :=
  reservedSpace "2000/xmlns/"

/-- The bindings that hold everywhere. -/
def builtin : List Binding :=
  [⟨some (Utf8.encode "xml"), xmlSpace⟩, ⟨some (Utf8.encode "xmlns"), xmlnsSpace⟩]

/-- What an attribute binds, if it is a declaration at all. A declaration with an
empty prefix sets the default. The outer `none` is a forbidden declaration. -/
def ofAttribute (a : RawAttribute) : Option (Option Binding) :=
  match (Utf8.encode "xmlns").isPrefixOf? a.key with
  | none => some none
  | some [] => some (some ⟨none, a.value⟩)
  | some (colon :: named) =>
    if colon != 0x3A then some none
    else if named == Utf8.encode "xml" then if a.value == xmlSpace then some none else none
    else if named == Utf8.encode "xmlns" then none
    else if a.value == xmlSpace || a.value == xmlnsSpace then none
    else some (some ⟨if named.isEmpty then none else some named, a.value⟩)

/-- The bindings in force, innermost first, after the declarations of a tag. Only
the attributes before a malformed one are looked at. -/
def declare
    (inForce : List Binding)
    (tag : RawTag) : Except Problem (List Binding) :=
  tag.attributes.items.foldlM (fun bindings a =>
    match ofAttribute a with
    | some (some binding) => .ok (binding :: bindings)
    | some none => .ok bindings
    | none => .error .brokenMarkup) inForce

/-- The namespace of a name: its prefix stands before the first colon. A prefix
that is not bound, an empty prefix and an empty namespace all give none. -/
def resolve
    (inForce : List Binding)
    (name : Bytes) : Option Bytes :=
  let wanted :=
    if name.contains 0x3A then some (name.takeWhile (· != 0x3A)) else none
  match inForce.find? (·.named == wanted) with
  | some binding => if binding.space.isEmpty then none else some binding.space
  | none => none

end Binding
end Xml
end PimDav
