/-!
# Blanks

Three classes of blank are told apart.  Text that people wrote is trimmed and
split at the characters of the Unicode property White_Space; a message body is
trimmed at the five ASCII blanks; markup knows only four of those.
-/

namespace PimDav
namespace Text

/-- The characters with the Unicode property White_Space. -/
def isBlank (c : Char) : Bool :=
  let n := c.toNat
  (9 ≤ n && n ≤ 13) || n == 0x20 || n == 0x85 || n == 0xA0 || n == 0x1680 ||
    (0x2000 ≤ n && n ≤ 0x200A) || n == 0x2028 || n == 0x2029 || n == 0x202F ||
    n == 0x205F || n == 0x3000

/-- The blanks that a message body is trimmed of: tab, line feed, form feed,
carriage return and space. -/
def isBodyBlank (b : UInt8) : Bool :=
  b == 0x20 || b == 0x09 || b == 0x0A || b == 0x0C || b == 0x0D

/-- The blanks of markup: tab, line feed, carriage return and space. -/
def isMarkupBlank (b : UInt8) : Bool :=
  b == 0x20 || b == 0x09 || b == 0x0A || b == 0x0D

/-- A list without the leading and trailing elements that satisfy `p`. -/
def trimWhere
    {α : Type}
    (p : α → Bool)
    (l : List α) : List α :=
  ((l.dropWhile p).reverse.dropWhile p).reverse

/-- A text without its leading and trailing blanks. -/
def trim (s : String) : String :=
  String.ofList (trimWhere isBlank s.toList)

@[simp] theorem toList_trim
    (s : String) :
    (trim s).toList = trimWhere isBlank s.toList := by
  simp [trim]

/-- The trimmed text, unless nothing is left of it. -/
def trimmed? (s : String) : Option String :=
  let t := trim s
  if t.isEmpty then none else some t

end Text
end PimDav
