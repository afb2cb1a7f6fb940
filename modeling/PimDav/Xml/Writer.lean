import PimDav.Xml.Element
import PimDav.Xml.Entity

/-!
# Written elements

The compact form adds nothing to what the tree holds.  The indented form, meant
for people, puts every element of a mixed content on lines of its own, trims the
texts beside them and leaves out texts that are blank.  Writers put their
characters in front of the ones that follow.
-/

namespace PimDav
namespace Xml

/-- The declaration in front of every document. -/
def declaration : String :=
  "<?xml version=\"1.0\" encoding=\"utf-8\"?>"

namespace Tag

/-- An attribute with the blank before it. -/
def writeAttribute (a : String × String) : List Char :=
  ' ' :: a.1.toList ++ ('=' :: '\x22' :: escapeChars a.2.toList) ++ ['\x22']

/-- The opening tag up to, but not including, its last bracket. -/
def writeOpening
    (tag : Tag)
    (rest : List Char) : List Char :=
  '<' :: tag.name.toList ++ (tag.attributes.flatMap writeAttribute ++ rest)

def writeClosing
    (tag : Tag)
    (rest : List Char) : List Char :=
  '<' :: '/' :: tag.name.toList ++ ('>' :: rest)

@[simp] theorem writeOpening_append
    (tag : Tag)
    (rest more : List Char) :
    tag.writeOpening (rest ++ more) = tag.writeOpening rest ++ more := by
  simp [writeOpening]

@[simp] theorem writeClosing_append
    (tag : Tag)
    (rest more : List Char) :
    tag.writeClosing (rest ++ more) = tag.writeClosing rest ++ more := by
  simp [writeClosing]

end Tag

namespace Content

/-- The compact form; an element without content is written as a single tag. -/
def write : Content → List Char → List Char
  | nothing, rest => rest
  | text v after, rest => escapeChars v.toList ++ write after rest
  | element tag inside after, rest =>
    tag.writeOpening <|
      if inside.isNothing then '/' :: '>' :: write after rest
      else '>' :: write inside (tag.writeClosing (write after rest))

/-- Writing only puts characters in front of what follows. -/
theorem write_append
    (c : Content)
    (rest more : List Char) :
    c.write (rest ++ more) = c.write rest ++ more := by
  induction c generalizing rest with
  | nothing => rfl
  | text v after ih => simp [write, ih]
  | element tag inside after ihInside ihAfter =>
    rw [write, write, ← Tag.writeOpening_append]
    split
    · simp [ihAfter]
    · simp [ihAfter, ← ihInside]

/-- Whether there is nothing but blank text. -/
def isBlank : Content → Bool
  | nothing => true
  | text v after => (Text.trim v).isEmpty && isBlank after
  | element .. => false

/-- Whether there is no element. -/
def isText : Content → Bool
  | nothing => true
  | text _ after => isText after
  | element .. => false

def indentation (depth : Nat) : List Char :=
  List.replicate (2 * depth) ' '

/-- The indented form of the nodes of a content, on lines at the given depth. -/
def writeLines (depth : Nat) : Content → List Char → List Char
  | nothing, rest => rest
  | text v after, rest =>
    let kept := Text.trim v
    if kept.isEmpty then writeLines depth after rest
    else indentation depth ++ (escapeChars kept.toList ++ ('\n' :: writeLines depth after rest))
  | element tag inside after, rest =>
    indentation depth ++ (tag.writeOpening <|
      if inside.isBlank then '/' :: '>' :: '\n' :: writeLines depth after rest
      else if inside.isText then
        '>' :: (escapeChars inside.characters ++
          tag.writeClosing ('\n' :: writeLines depth after rest))
      else
        '>' :: '\n' :: writeLines (depth + 1) inside
          (indentation depth ++ tag.writeClosing ('\n' :: writeLines depth after rest)))

end Content

namespace Element

/-- The compact form, without a declaration. -/
def compact (e : Element) : String :=
  String.ofList (e.alone.write [])

/-- The declaration and the compact form. -/
def document (e : Element) : String :=
  declaration ++ e.compact

/-- The declaration and the indented form. -/
def indented (e : Element) : String :=
  declaration ++ "\n" ++ String.ofList (e.alone.writeLines 0 [])

end Element
end Xml
end PimDav
