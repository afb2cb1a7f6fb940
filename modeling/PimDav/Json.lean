import PimDav.Text.Digits

/-!
# JSON

A strict reader for settings.  It takes one value with blanks around it and
nothing else.  Numbers other than natural ones written plainly are recognised but
not evaluated, because no setting is such a number.
-/

namespace PimDav

inductive Json where
  | null
  | bool (value : Bool)
  /-- A number written with digits only. -/
  | whole (n : Nat)
  /-- A number with a sign, a fraction or an exponent. -/
  | number
  /-- A string, or nothing when its escapes do not stand for characters. -/
  | text (value : Option String)
  | array (items : List Json)
  /-- Names with their values; a name is a string like any other. -/
  | object (members : List (Option String × Json))

namespace Json

def isBlank (c : Char) : Bool :=
  c == ' ' || c == '\n' || c == '\t' || c == '\r'

def skipBlanks (cs : List Char) : List Char :=
  cs.dropWhile isBlank

/-- The character of a one-letter escape. -/
def escaped? : Char → Option Char
  | '\x22' => some '\x22'
  | '\\' => some '\\'
  | '/' => some '/'
  | 'b' => some '\x08'
  | 'f' => some '\x0c'
  | 'n' => some '\n'
  | 'r' => some '\r'
  | 't' => some '\t'
  | _ => none

/-- The units of a string after its first quote, and what follows the last one. A
unit is a character, or a code of sixteen bits that an escape gives. -/
def units? : List Char → Option (List Nat × List Char)
  | [] => none
  | '\x22' :: rest => some ([], rest)
  | '\\' :: 'u' :: a :: b :: c :: d :: rest =>
    (Text.number? 16 [a, b, c, d]).bind fun code =>
      (units? rest).map fun (us, rest) => (code :: us, rest)
  | '\\' :: c :: rest =>
    (escaped? c).bind fun e => (units? rest).map fun (us, rest) => (e.toNat :: us, rest)
  | c :: rest =>
    if c.toNat < 0x20 then none
    else (units? rest).map fun (us, rest) => (c.toNat :: us, rest)

/-- The characters of units: two codes of a surrogate pair make one character, and
a code of half a pair makes none. -/
def characters? : List Nat → Option (List Char)
  | [] => some []
  | [n] => if 0xD800 ≤ n && n < 0xE000 then none else some [Char.ofNat n]
  | n :: m :: rest =>
    if 0xD800 ≤ n && n < 0xDC00 && 0xDC00 ≤ m && m < 0xE000 then
      (characters? rest).map (Char.ofNat (0x10000 + (n - 0xD800) * 0x400 + (m - 0xDC00)) :: ·)
    else if 0xD800 ≤ n && n < 0xE000 then none
    else (characters? (m :: rest)).map (Char.ofNat n :: ·)

/-- A string after its first quote. -/
def string? (cs : List Char) : Option (Option String × List Char) :=
  (units? cs).map fun (us, rest) => ((characters? us).map String.ofList, rest)

/-- One or more digits, and what follows them. -/
def digits? (cs : List Char) : Option (List Char × List Char) :=
  let digits := cs.takeWhile Char.isDigit
  if digits.isEmpty then none else some (digits, cs.dropWhile Char.isDigit)

/-- What follows a fraction, if there is one; the flag says whether there is. -/
def fraction? : List Char → Option (Bool × List Char)
  | '.' :: cs => (digits? cs).map fun (_, rest) => (true, rest)
  | cs => some (false, cs)

def exponent? : List Char → Option (Bool × List Char)
  | c :: cs =>
    if c == 'e' || c == 'E' then
      let unsigned :=
        match cs with
        | '+' :: rest => rest
        | '-' :: rest => rest
        | _ => cs
      (digits? unsigned).map fun (_, rest) => (true, rest)
    else some (false, c :: cs)
  | [] => some (false, [])

/-- A number. No digit follows a leading zero. -/
def number? (cs : List Char) : Option (Json × List Char) := do
  let (signed, cs) :=
    match cs with
    | '-' :: rest => (true, rest)
    | _ => (false, cs)
  let (digits, rest) ← digits? cs
  if digits.length > 1 && digits.head? == some '0' then none
  else
    let (broken, rest) ← fraction? rest
    let (scaled, rest) ← exponent? rest
    if signed || broken || scaled then return (.number, rest)
    else return (.whole ((Text.number? 10 digits).getD 0), rest)

mutual

/-- A value and what follows it. Each nested value takes one from the bound on the
depth of nesting and of sequences. -/
def value? : Nat → List Char → Option (Json × List Char)
  | 0, _ => none
  | bound + 1, cs =>
    match skipBlanks cs with
    | 'n' :: 'u' :: 'l' :: 'l' :: rest => some (.null, rest)
    | 't' :: 'r' :: 'u' :: 'e' :: rest => some (.bool true, rest)
    | 'f' :: 'a' :: 'l' :: 's' :: 'e' :: rest => some (.bool false, rest)
    | '\x22' :: rest => (string? rest).map fun (s, rest) => (.text s, rest)
    | '[' :: rest =>
      match skipBlanks rest with
      | ']' :: rest => some (.array [], rest)
      | _ => (items? bound rest).map fun (items, rest) => (.array items, rest)
    | '\x7b' :: rest =>
      match skipBlanks rest with
      | '\x7d' :: rest => some (.object [], rest)
      | _ => (members? bound rest).map fun (members, rest) => (.object members, rest)
    | cs => number? cs

/-- The items of an array up to its bracket. -/
def items? : Nat → List Char → Option (List Json × List Char)
  | 0, _ => none
  | bound + 1, cs =>
    (value? bound cs).bind fun (item, rest) =>
      match skipBlanks rest with
      | ',' :: rest => (items? bound rest).map fun (items, rest) => (item :: items, rest)
      | ']' :: rest => some ([item], rest)
      | _ => none

/-- The members of an object up to its brace. -/
def members? : Nat → List Char → Option (List (Option String × Json) × List Char)
  | 0, _ => none
  | bound + 1, cs =>
    match skipBlanks cs with
    | '\x22' :: rest =>
      (string? rest).bind fun (name, rest) =>
        match skipBlanks rest with
        | ':' :: rest =>
          (value? bound rest).bind fun (value, rest) =>
            match skipBlanks rest with
            | ',' :: rest =>
              (members? bound rest).map fun (members, rest) => ((name, value) :: members, rest)
            | '\x7d' :: rest => some ([(name, value)], rest)
            | _ => none
        | _ => none
    | _ => none

end

/-- The value that a text holds. -/
def read? (s : String) : Option Json :=
  let cs := s.toList
  match value? (2 * cs.length + 2) cs with
  | some (value, rest) => if (skipBlanks rest).isEmpty then some value else none
  | none => none

/-- A character as it is written inside a string. -/
def writtenChar (c : Char) : List Char :=
  if c == '\x22' then ['\\', '\x22']
  else if c == '\\' then ['\\', '\\']
  else if c == '\x08' then ['\\', 'b']
  else if c == '\x0c' then ['\\', 'f']
  else if c == '\n' then ['\\', 'n']
  else if c == '\r' then ['\\', 'r']
  else if c == '\t' then ['\\', 't']
  else if c.toNat < 0x20 then
    let digits := Nat.toDigits 16 c.toNat
    ['\\', 'u'] ++ List.replicate (4 - digits.length) '0' ++ digits
  else [c]

/-- A text as a string. -/
def written (s : String) : String :=
  String.ofList ('\x22' :: s.toList.flatMap writtenChar ++ ['\x22'])

end Json
end PimDav
