import PimDav.Text.Utf8

/-!
# Base 64

The standard alphabet with padding: three bytes become four characters.
-/

namespace PimDav
namespace Base64

/-- The character of a six-bit number. -/
def digit (n : Nat) : Char :=
  if n < 26 then Char.ofNat (65 + n)
  else if n < 52 then Char.ofNat (71 + n)
  else if n < 62 then Char.ofNat (n - 4)
  else if n == 62 then '+'
  else '/'

/-- The four characters of three bytes read as one number. -/
def quartet (n : Nat) : List Char :=
  [digit (n / 262144 % 64), digit (n / 4096 % 64), digit (n / 64 % 64), digit (n % 64)]

/-- The characters of the bytes. A last group of one or two bytes is filled up
with zeros, and the characters that hold no bit of it are written as `=`. -/
def encode : Bytes → List Char
  | [] => []
  | [a] => (quartet (a.toNat * 65536)).take 2 ++ ['=', '=']
  | [a, b] => (quartet (a.toNat * 65536 + b.toNat * 256)).take 3 ++ ['=']
  | a :: b :: c :: rest =>
    quartet (a.toNat * 65536 + b.toNat * 256 + c.toNat) ++ encode rest

example : String.ofList (encode (Utf8.encode "jdoe:secret")) = "amRvZTpzZWNyZXQ=" := by
  decide +kernel

end Base64
end PimDav
