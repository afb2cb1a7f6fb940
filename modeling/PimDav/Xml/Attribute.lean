import PimDav.Text.Blank
import PimDav.Text.Utf8
import PimDav.Xml.Element
import PimDav.Xml.Entity
import PimDav.Xml.Trail

/-!
# Attributes as they are written

An opening tag is split into its name and the text of its attributes, and that
text into keys and values.  A key begins with any byte that is not blank and
runs up to a blank or an equals sign; a value stands between two equal quotes.
-/

namespace PimDav
namespace Xml

structure RawAttribute where
  key : Bytes
  value : Bytes
  deriving DecidableEq, Repr

namespace RawAttribute

/-- Where the reader of an attribute list stands. -/
inductive Place where
  | between
  | key (seen : Bytes)
  | afterKey (key : Bytes)
  | afterEquals (key : Bytes)
  | value (key : Bytes) (quote : UInt8) (seen : Bytes)
  deriving DecidableEq, Repr

/-- One byte. The first byte of a key is taken whatever it is. -/
def step : Place → UInt8 → Except Problem (Place × List RawAttribute)
  | .between, b =>
    .ok (if Text.isMarkupBlank b then .between else .key [b], [])
  | .key seen, b =>
    .ok (if b == 0x3D then .afterEquals seen.reverse
      else if Text.isMarkupBlank b then .afterKey seen.reverse
      else .key (b :: seen), [])
  | .afterKey key, b =>
    if b == 0x3D then .ok (.afterEquals key, [])
    else if Text.isMarkupBlank b then .ok (.afterKey key, [])
    else .error .badAttribute
  | .afterEquals key, b =>
    if b == 0x22 || b == 0x27 then .ok (.value key b [], [])
    else if Text.isMarkupBlank b then .ok (.afterEquals key, [])
    else .error .badAttribute
  | .value key quote seen, b =>
    .ok (if b == quote then (.between, [⟨key, seen.reverse⟩])
      else (.value key quote (b :: seen), []))

/-- The attributes from a place on; those already read come first, the latest
one at the head. -/
def trailFrom : Place → List RawAttribute → Bytes → Trail RawAttribute
  | .between, done, [] => ⟨done.reverse, none⟩
  | _, done, [] => ⟨done.reverse, some .badAttribute⟩
  | place, done, b :: bytes =>
    match step place b with
    | .ok (next, new) => trailFrom next (new ++ done) bytes
    | .error p => ⟨done.reverse, some p⟩

/-- The attributes of a list up to the first malformed one. -/
def trail (bytes : Bytes) : Trail RawAttribute :=
  trailFrom .between [] bytes

/-- The attribute with its key and value as text. The value has to be valid, and
its references have to be known. -/
def read? (a : RawAttribute) : Option (String × String) :=
  (Utf8.decode? a.value).bind fun value =>
    (resolveValue? none value.toList).map fun cs => (Utf8.decodeLossy a.key, String.ofList cs)

end RawAttribute

/-- An opening tag as it is written. -/
structure RawTag where
  name : Bytes
  attributes : Trail RawAttribute
  deriving DecidableEq, Repr

namespace RawTag

/-- The tag that stands between two brackets: its name ends at the first blank. -/
def ofBytes (raw : Bytes) : RawTag where
  name := raw.takeWhile fun b => !Text.isMarkupBlank b
  attributes := RawAttribute.trail (raw.dropWhile fun b => !Text.isMarkupBlank b)

/-- The attributes as text; the first problem in the list decides. -/
def readAttributes (tag : RawTag) : Except Problem (List (String × String)) := do
  let read ← tag.attributes.items.mapM fun a =>
    match a.read? with
    | some pair => .ok pair
    | none => .error .badAttributeValue
  match tag.attributes.fault with
  | none => return read
  | some p => throw p

/-- The tag, in the namespace that its name was found to belong to. -/
def read
    (tag : RawTag)
    (space : Option Bytes) : Except Problem Tag := do
  let attributes ← tag.readAttributes
  return { name := Utf8.decodeLossy tag.name, space := space.map Utf8.decodeLossy, attributes }

end RawTag
end Xml
end PimDav
