import PimDav.Text.Hidden

/-!
# Quoted text

The form in which a text appears inside a description of a value: between double
quotes, with quotes and backslashes escaped and every character that does not
show by itself written as its code.
-/

namespace PimDav
namespace Text

/-- One character as it stands between the quotes. -/
def quotedChar (c : Char) : List Char :=
  if c == '\x22' || c == '\\' then ['\\', c]
  else if c == '\n' then ['\\', 'n']
  else if c == '\r' then ['\\', 'r']
  else if c == '\t' then ['\\', 't']
  else if c == '\x00' then ['\\', '0']
  else if isHidden c then
    ['\\', 'u', '\x7b'] ++ Nat.toDigits 16 c.toNat ++ ['\x7d']
  else [c]

/-- The text between double quotes. -/
def quoted (s : String) : String :=
  String.ofList ('\x22' :: s.toList.flatMap quotedChar ++ ['\x22'])

example : quoted "a\"b\\c\n\x01" = "\"a\\\"b\\\\c\\n\\u\x7b1\x7d\"" := by
  decide +kernel

end Text
end PimDav
