import PimDav.Text.Digits

/-!
# Escapes and references

Written text escapes the five characters that markup reserves.  Read text
resolves the five names for them and references by number; what any other
reference means is not known here.
-/

namespace PimDav
namespace Xml

/-- A character as it is written in text and in attribute values. -/
def escapeChar (c : Char) : List Char :=
  if c == '&' then ['&', 'a', 'm', 'p', ';']
  else if c == '<' then ['&', 'l', 't', ';']
  else if c == '>' then ['&', 'g', 't', ';']
  else if c == '\x22' then ['&', 'q', 'u', 'o', 't', ';']
  else if c == '\x27' then ['&', 'a', 'p', 'o', 's', ';']
  else [c]

def escapeChars (cs : List Char) : List Char :=
  cs.flatMap escapeChar

def escape (s : String) : String :=
  String.ofList (escapeChars s.toList)

/-- The character with a given code, zero excepted. -/
def charOfCode? (n : Nat) : Option Char :=
  if n != 0 && decide n.isValidChar then some (Char.ofNat n) else none

/-- The character that a reference stands for, by what is written between `&`
and `;`. -/
def referenceChar? : List Char → Option Char
  | ['l', 't'] => some '<'
  | ['g', 't'] => some '>'
  | ['a', 'm', 'p'] => some '&'
  | ['a', 'p', 'o', 's'] => some '\x27'
  | ['q', 'u', 'o', 't'] => some '\x22'
  | '#' :: 'x' :: digits => (Text.number? 16 digits).bind charOfCode?
  | '#' :: digits => (Text.number? 10 digits).bind charOfCode?
  | _ => none

/-- What a reference inside text reads as: its character, or the reference as it
was written when its meaning is unknown. -/
def referenceText (name : String) : String :=
  match referenceChar? name.toList with
  | some c => String.ofList [c]
  | none => "&" ++ name ++ ";"

/-- The meaning of an attribute value as it was written, where every reference
has to be known. While a reference is being read its name so far is carried
along, latest character first. -/
def resolveValue? : Option (List Char) → List Char → Option (List Char)
  | none, [] => some []
  | some _, [] => none
  | none, c :: cs =>
    if c == '&' then resolveValue? (some []) cs
    else (resolveValue? none cs).map (c :: ·)
  | some name, c :: cs =>
    if c == ';' then
      (referenceChar? name.reverse).bind fun r => (resolveValue? none cs).map (r :: ·)
    else if c == '&' then none
    else resolveValue? (some (c :: name)) cs

example : escape "a<b> & \"c'" = "a&lt;b&gt; &amp; &quot;c&apos;" := by
  decide +kernel

end Xml
end PimDav
