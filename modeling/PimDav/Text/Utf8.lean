/-!
# Bytes and text

A message travels as bytes.  `Utf8.units` reads bytes as characters: a
well-formed sequence gives its character, and every maximal part that cannot
belong to a character gives `none`.  The lossy reading puts the replacement
character for each such part; the strict reading refuses the text.
-/

namespace PimDav

/-- A message body, or a part of one. -/
abbrev Bytes := List UInt8

namespace Utf8

/-- The bytes of a text. -/
def encode (s : String) : Bytes :=
  s.toList.flatMap String.utf8EncodeChar

/-- Where a reader stands between two bytes: between two characters, or inside
one that still owes `owed` bytes, the next of them from `low` to `high`. -/
inductive Stage where
  | between
  | inside (owed : Nat) (low high : UInt8) (value : Nat)
  deriving DecidableEq, Repr

/-- The first byte of a character. -/
def lead (b : UInt8) : Stage × List (Option Char) :=
  let n := b.toNat
  if n < 0x80 then (.between, [some (Char.ofNat n)])
  else if n < 0xC2 then (.between, [none])
  else if n < 0xE0 then (.inside 1 0x80 0xBF (n - 0xC0), [])
  else if n == 0xE0 then (.inside 2 0xA0 0xBF 0, [])
  else if n == 0xED then (.inside 2 0x80 0x9F 0xD, [])
  else if n < 0xF0 then (.inside 2 0x80 0xBF (n - 0xE0), [])
  else if n == 0xF0 then (.inside 3 0x90 0xBF 0, [])
  else if n < 0xF4 then (.inside 3 0x80 0xBF (n - 0xF0), [])
  else if n == 0xF4 then (.inside 3 0x80 0x8F 4, [])
  else (.between, [none])

/-- One byte: the new stage and what it completes. A byte that cannot continue a
character ends that character and is read as the first byte of the next one. -/
def step : Stage → UInt8 → Stage × List (Option Char)
  | .between, b => lead b
  | .inside owed low high value, b =>
    if low ≤ b && b ≤ high then
      let value := value * 64 + (b.toNat - 0x80)
      if owed ≤ 1 then (.between, [some (Char.ofNat value)])
      else (.inside (owed - 1) 0x80 0xBF value, [])
    else
      let next := lead b
      (next.1, none :: next.2)

/-- A reading in progress: the stage, and what has been read, latest first. -/
structure Reading where
  stage : Stage := .between
  units : List (Option Char) := []
  deriving DecidableEq, Repr

namespace Reading

def feed
    (r : Reading)
    (b : UInt8) : Reading :=
  let next := step r.stage b
  ⟨next.1, next.2.reverse ++ r.units⟩

/-- What was read in all; a character cut short by the end is one invalid part. -/
def finish (r : Reading) : List (Option Char) :=
  match r.stage with
  | .between => r.units.reverse
  | .inside .. => (none :: r.units).reverse

end Reading

/-- The characters of the bytes, `none` for each maximal invalid part. -/
def units (bytes : Bytes) : List (Option Char) :=
  (bytes.foldl Reading.feed {}).finish

/-- The text, with the replacement character for each invalid part. -/
def decodeLossy (bytes : Bytes) : String :=
  String.ofList ((units bytes).map (·.getD (Char.ofNat 0xFFFD)))

/-- The text, when every part is valid. -/
def decode? (bytes : Bytes) : Option String :=
  ((units bytes).mapM id).map String.ofList

@[simp] theorem encode_append
    (s t : String) :
    encode (s ++ t) = encode s ++ encode t := by
  simp [encode]

end Utf8
end PimDav
