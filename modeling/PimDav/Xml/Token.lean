import PimDav.Text.Blank
import PimDav.Text.Utf8
import PimDav.Xml.Trail

/-!
# Tokens

A document is cut into tokens byte by byte.  A `Mode` says where the reader
stands, `Mode.step` takes one byte, and `Token.trail` runs over the whole
document.  Once the markup is broken it stays broken.
-/

namespace PimDav
namespace Xml

/-- A token with its bytes as they were written. -/
inductive Token where
  /-- Characters between markup. -/
  | text (raw : Bytes)
  /-- What stands between `&` and `;`. -/
  | reference (raw : Bytes)
  | cdata (raw : Bytes)
  /-- What stands between the brackets of an opening tag, or of a tag that opens
  and closes at once. -/
  | opening (raw : Bytes)
  /-- What stands between `</` and the bracket. -/
  | closing (raw : Bytes)
  /-- A comment, an instruction, a declaration or a doctype. -/
  | aside
  deriving DecidableEq, Repr

/-- The places inside a doctype. In the internal subset quoted text may hide the
bracket of a declaration of entities, attributes or notations; any other markup
there, declarations of elements included, runs to the first bracket. -/
inductive Doctype where
  /-- The letters still missing from its keyword. -/
  | keyword (missing : Bytes)
  /-- Before the first byte of its text. -/
  | blank
  | outer
  | outerQuote (quote : UInt8)
  | subset
  /-- After `<` in the internal subset: the bytes since then, latest first. -/
  | opened (seen : Bytes)
  | comment (dashes : Nat)
  /-- In an instruction; whether the last byte was a question mark. -/
  | instruction (asked : Bool)
  | declaration
  | declarationQuote (quote : UInt8)
  /-- In markup of any other kind. -/
  | markup
  | afterSubset
  deriving DecidableEq, Repr

/-- Where the reader stands. Bytes that belong to the token at hand are kept
latest first. -/
inductive Mode where
  | text (seen : Bytes)
  | reference (seen : Bytes)
  /-- After `<`. -/
  | opened
  | opening (seen : Bytes)
  | openingQuote (seen : Bytes) (quote : UInt8)
  | closing (seen : Bytes)
  | closingQuote (seen : Bytes) (quote : UInt8)
  /-- After `<?`. -/
  | afterQuestion
  /-- In an instruction; whether the last byte was a question mark. -/
  | instruction (asked : Bool)
  /-- After `<!`. -/
  | bang
  /-- After `<!-`. -/
  | dash
  /-- In a comment, after this many dashes. -/
  | comment (dashes : Nat)
  /-- The bytes still missing before the characters of a section. -/
  | cdataKeyword (missing : Bytes)
  | cdata (seen : Bytes)
  | doctype (place : Doctype)
  | broken
  deriving DecidableEq, Repr

namespace Doctype

/-- What may begin in the internal subset after `<` and is not mere markup, and the
place it leads to. -/
def markings : List (Bytes × Doctype) :=
  [(Utf8.encode "!--", .comment 0),
   (Utf8.encode "?", .instruction false),
   (Utf8.encode "!ENTITY", .declaration),
   (Utf8.encode "!ATTLIST", .declaration),
   (Utf8.encode "!NOTATION", .declaration)]

/-- One byte of the internal subset itself. -/
def inSubset (b : UInt8) : Doctype :=
  if b == 0x5D then .afterSubset
  else if b == 0x3C then .opened []
  else .subset

/-- One byte of markup of no particular kind. -/
def inMarkup (b : UInt8) : Doctype :=
  if b == 0x3E then .subset else .markup

/-- One more byte after `<`, as long as the kind of the markup is open. -/
def inOpened (seen : Bytes) (b : UInt8) : Doctype :=
  let now := (b :: seen).reverse
  match markings.find? (·.1 == now) with
  | some marking => marking.2
  | none => if markings.any (fun m => now.isPrefixOf m.1) then .opened (b :: seen) else inMarkup b

/-- One byte of the text before the internal subset; `none` ends the doctype. -/
def inOuter (b : UInt8) : Option Doctype :=
  if b == 0x3E then none
  else if b == 0x22 || b == 0x27 then some (.outerQuote b)
  else if b == 0x5B then some .subset
  else some .outer

end Doctype

/-- The number of dashes at the end of a text that went on with `b`, up to two. -/
def dashesAfter (dashes : Nat) (b : UInt8) : Nat :=
  if b == 0x2D then min (dashes + 1) 2 else 0

namespace Mode

/-- The token that has been read when the text ends here. -/
def flushText (seen : Bytes) : List Token :=
  if seen.isEmpty then [] else [.text seen.reverse]

/-- One byte after `<`. -/
def stepOpened (b : UInt8) : Mode × List Token :=
  if b == 0x2F then (.closing [], [])
  else if b == 0x21 then (.bang, [])
  else if b == 0x3F then (.afterQuestion, [])
  else if b == 0x3E then (.text [], [.opening []])
  else if b == 0x22 || b == 0x27 then (.openingQuote [b] b, [])
  else (.opening [b], [])

/-- One byte inside a doctype. -/
def stepDoctype (place : Doctype) (b : UInt8) : Mode × List Token :=
  match place with
  | .keyword [] => (.broken, [])
  | .keyword (m :: missing) =>
    if b == m || b == m + 0x20 then
      (.doctype (if missing.isEmpty then .blank else .keyword missing), [])
    else (.broken, [])
  | .blank =>
    if Text.isMarkupBlank b then (.doctype .blank, [])
    else if b == 0x3E then (.broken, [])
    else outer b
  | .outer => outer b
  | .outerQuote quote => (.doctype (if b == quote then .outer else .outerQuote quote), [])
  | .subset => (.doctype (Doctype.inSubset b), [])
  | .opened seen => (.doctype (Doctype.inOpened seen b), [])
  | .comment dashes =>
    if b == 0x3E && dashes == 2 then (.doctype .subset, [])
    else (.doctype (.comment (dashesAfter dashes b)), [])
  | .instruction asked =>
    if b == 0x3E && asked then (.doctype .subset, [])
    else (.doctype (.instruction (b == 0x3F)), [])
  | .declaration =>
    if b == 0x3E then (.doctype .subset, [])
    else if b == 0x22 || b == 0x27 then (.doctype (.declarationQuote b), [])
    else (.doctype .declaration, [])
  | .declarationQuote quote =>
    (.doctype (if b == quote then .declaration else .declarationQuote quote), [])
  | .markup => (.doctype (Doctype.inMarkup b), [])
  | .afterSubset => if b == 0x3E then (.text [], [.aside]) else (.doctype .afterSubset, [])
where
  outer (b : UInt8) : Mode × List Token :=
    match Doctype.inOuter b with
    | some place => (.doctype place, [])
    | none => (.text [], [.aside])

/-- One byte: the new mode and the tokens that it completes. -/
def step : Mode → UInt8 → Mode × List Token
  | .text seen, b =>
    if b == 0x3C then (.opened, flushText seen)
    else if b == 0x26 then (.reference [], flushText seen)
    else (.text (b :: seen), [])
  | .reference seen, b =>
    if b == 0x3B then (.text [], [.reference seen.reverse])
    else if b == 0x26 || b == 0x3C then (.broken, [])
    else (.reference (b :: seen), [])
  | .opened, b => stepOpened b
  | .opening seen, b =>
    if b == 0x3E then (.text [], [.opening seen.reverse])
    else if b == 0x22 || b == 0x27 then (.openingQuote (b :: seen) b, [])
    else (.opening (b :: seen), [])
  | .openingQuote seen quote, b =>
    if b == quote then (.opening (b :: seen), []) else (.openingQuote (b :: seen) quote, [])
  | .closing seen, b =>
    if b == 0x3E then (.text [], [.closing seen.reverse])
    else if b == 0x22 || b == 0x27 then (.closingQuote (b :: seen) b, [])
    else (.closing (b :: seen), [])
  | .closingQuote seen quote, b =>
    if b == quote then (.closing (b :: seen), []) else (.closingQuote (b :: seen) quote, [])
  | .afterQuestion, b => if b == 0x3E then (.broken, []) else (.instruction (b == 0x3F), [])
  | .instruction asked, b =>
    if b == 0x3E && asked then (.text [], [.aside]) else (.instruction (b == 0x3F), [])
  | .bang, b =>
    if b == 0x2D then (.dash, [])
    else if b == 0x5B then (.cdataKeyword (Utf8.encode "CDATA["), [])
    else if b == 0x44 || b == 0x64 then (.doctype (.keyword (Utf8.encode "OCTYPE")), [])
    else (.broken, [])
  | .dash, b => if b == 0x2D then (.comment 0, []) else (.broken, [])
  | .comment dashes, b =>
    if b == 0x3E && dashes == 2 then (.text [], [.aside])
    else (.comment (dashesAfter dashes b), [])
  | .cdataKeyword [], _ => (.broken, [])
  | .cdataKeyword (m :: missing), b =>
    if b == m then (if missing.isEmpty then .cdata [] else .cdataKeyword missing, [])
    else (.broken, [])
  | .cdata seen, b =>
    match b == 0x3E, seen with
    | true, 0x5D :: 0x5D :: content => (.text [], [.cdata content.reverse])
    | _, _ => (.cdata (b :: seen), [])
  | .doctype place, b => stepDoctype place b
  | .broken, _ => (.broken, [])

end Mode

/-- A reading in progress: the mode, and the tokens read so far, latest first. -/
structure Lexing where
  mode : Mode := .text []
  tokens : List Token := []
  deriving DecidableEq, Repr

namespace Lexing

def feed
    (l : Lexing)
    (b : UInt8) : Lexing :=
  let next := l.mode.step b
  ⟨next.1, next.2.reverse ++ l.tokens⟩

/-- The tokens in order. A document that ends inside markup is broken there. -/
def finish (l : Lexing) : Trail Token :=
  match l.mode with
  | .text seen => ⟨(Mode.flushText seen ++ l.tokens).reverse, none⟩
  | _ => ⟨l.tokens.reverse, some .brokenMarkup⟩

end Lexing

/-- The bytes without one byte order mark at their beginning. -/
def withoutMark : Bytes → Bytes
  | 0xEF :: 0xBB :: 0xBF :: rest => rest
  | bytes => bytes

/-- The tokens of a document. -/
def Token.trail (bytes : Bytes) : Trail Token :=
  ((withoutMark bytes).foldl Lexing.feed {}).finish

end Xml
end PimDav
