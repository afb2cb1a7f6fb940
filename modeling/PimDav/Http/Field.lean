import PimDav.Text.Caseless
import PimDav.Text.Split
import PimDav.Text.Utf8

/-!
# Header fields

Headers are fields in the order in which they were added; one name may occur more
than once.  Names are kept in small letters.  A value is a sequence of bytes,
and only a value of printable ASCII and tabs can be read as text.
-/

namespace PimDav
namespace Http

structure Field where
  name : String
  value : Bytes
  deriving DecidableEq, Repr

structure Headers where
  fields : List Field := []
  deriving DecidableEq, Repr

/-- The characters of tokens: names of fields and methods. -/
def isTokenChar (c : Char) : Bool :=
  c.isAlphanum || "!#$%&*+-.^_|~\x27\x60".toList.contains c

def isToken (s : String) : Bool :=
  !s.isEmpty && s.toList.all isTokenChar

namespace Field

/-- Whether a byte may stand in a value: no control but the tab. -/
def isValueByte (b : UInt8) : Bool :=
  (0x20 ≤ b && b != 0x7F) || b == 0x09

def isReadableByte (b : UInt8) : Bool :=
  (0x20 ≤ b && b ≤ 0x7E) || b == 0x09

def isValue (value : Bytes) : Bool :=
  value.all isValueByte

/-- A field with a value given as text. -/
def ofText (name value : String) : Field :=
  ⟨name, Utf8.encode value⟩

/-- The value as text, when it is readable. -/
def text? (f : Field) : Option String :=
  if f.value.all isReadableByte then
    some (String.ofList (f.value.map fun b => Char.ofNat b.toNat))
  else none

end Field

namespace Headers

/-- The fields with a name, in order. -/
def all
    (h : Headers)
    (name : String) : List Field :=
  h.fields.filter (·.name == name)

def has
    (h : Headers)
    (name : String) : Bool :=
  h.fields.any (·.name == name)

/-- The headers with one more field at the end. -/
def add
    (h : Headers)
    (f : Field) : Headers :=
  ⟨h.fields ++ [f]⟩

/-- The headers with a field added, unless its name occurs already. -/
def addMissing
    (h : Headers)
    (f : Field) : Headers :=
  if h.has f.name then h else h.add f

/-- The headers without some names.  In which order the names that stay are listed after a
removal is left open, and shows in a dump only; here they keep theirs.  The values of one
name always keep their order. -/
def without
    (h : Headers)
    (names : List String) : Headers :=
  ⟨h.fields.filter fun f => !names.contains f.name⟩

/-- Fields of other names stay as they are. -/
theorem all_without
    {names : List String}
    {name : String}
    (hname : names.contains name = false)
    (h : Headers) :
    (h.without names).all name = h.all name := by
  rw [all, all, without, List.filter_filter]
  apply List.filter_congr
  intro f _
  cases hsame : f.name == name with
  | false => rfl
  | true =>
    rw [eq_of_beq hsame, hname]
    rfl

theorem all_without_of_contains
    {names : List String}
    {name : String}
    (hname : names.contains name = true)
    (h : Headers) :
    (h.without names).all name = [] := by
  rw [all, without, List.filter_filter, List.filter_eq_nil_iff]
  intro f _ hf
  obtain ⟨hsame, hother⟩ := Bool.and_eq_true_iff.1 hf
  rw [eq_of_beq hsame, hname] at hother
  cases hother

/-- The names in the order in which they first occur. -/
def names (h : Headers) : List String :=
  (h.fields.foldl (fun seen f => if seen.contains f.name then seen else f.name :: seen)
    []).reverse

/-- The comma-separated pieces of all readable values of a name, untrimmed. -/
def pieces
    (h : Headers)
    (name : String) : List String :=
  ((h.all name).filterMap Field.text?).flatMap Text.commaPieces

/-- The tokens of the `DAV` fields, which say what a server is capable of. -/
def capabilities (h : Headers) : List String :=
  ((h.pieces "dav").map Text.trim).filter fun token => !token.isEmpty

/-- An entity tag without the pair of quotes around it. Any other tag, a weak one
too, stays as it is. -/
def unquoteTag (tag : String) : String :=
  match tag.toList with
  | '\x22' :: rest =>
    match rest.reverse with
    | '\x22' :: inner => String.ofList inner.reverse
    | _ => tag
  | _ => tag

/-- The entity tag of the first `ETag` field, when that field is readable. -/
def entityTag? (h : Headers) : Option String :=
  ((h.all "etag").head?.bind Field.text?).map unquoteTag

end Headers
end Http
end PimDav
