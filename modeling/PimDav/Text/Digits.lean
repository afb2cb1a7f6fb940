/-!
# Numbers in text
-/

namespace PimDav
namespace Text

/-- The value of a digit, letters standing for ten to fifteen. -/
def digitValue? (c : Char) : Option Nat :=
  let n := c.toNat
  if 48 ≤ n && n ≤ 57 then some (n - 48)
  else if 97 ≤ n && n ≤ 102 then some (n - 87)
  else if 65 ≤ n && n ≤ 70 then some (n - 55)
  else none

/-- The next digit of a number written in `base`. -/
def addDigit?
    (base : Nat)
    (sofar : Nat)
    (c : Char) : Option Nat :=
  (digitValue? c).bind fun d => if d < base then some (sofar * base + d) else none

/-- The number written by the characters in `base`, which is at most sixteen. No
sign and no blank is accepted, and there must be a digit. -/
def number?
    (base : Nat)
    (cs : List Char) : Option Nat :=
  if cs.isEmpty then none else cs.foldlM (addDigit? base) 0

/-- Whether a character is a digit in base sixteen. -/
def isHexDigit (c : Char) : Bool :=
  (digitValue? c).isSome

end Text
end PimDav
