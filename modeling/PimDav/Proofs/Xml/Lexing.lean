import PimDav.Proofs.Xml.Pieces
import PimDav.Proofs.Xml.WrittenTag

/-!
# The tokens of written elements

Written content is cut into exactly the tokens that were meant: one for every
tag, and for a text its runs of plain characters with a reference for every
reserved character between them.
-/

namespace PimDav
namespace Xml
/-- The tokens of escaped characters that follow unescaped ones of the same text. -/
def escapedTokens (pending : List Char) : List Char → List Token
  | [] => Mode.flushText (Utf8.encodeChars pending).reverse
  | c :: cs =>
    match escapeName? c with
    | none => escapedTokens (pending ++ [c]) cs
    | some name =>
      Mode.flushText (Utf8.encodeChars pending).reverse ++
        .reference (Utf8.encodeChars name) :: escapedTokens [] cs

/-- The tokens of escaped characters are those of their pieces. -/
theorem tokens_escaped
    (pending cs : List Char) :
    Piece.tokens pending (Piece.escaped cs) = escapedTokens pending cs := by
  induction cs generalizing pending with
  | nil => rfl
  | cons c cs ih =>
    rw [Piece.escaped, List.map_cons, Piece.tokens, escapedTokens, Piece.token?_ofChar,
      Piece.written_ofChar]
    cases hname : escapeName? c with
    | none => rw [escapeChar_of_none hname]; exact ih _
    | some name => exact congrArg _ (congrArg _ (ih _))

namespace Content

/-- The tokens of a written content. -/
def tokens : Content → List Token
  | nothing => []
  | text v after => escapedTokens [] v.toList ++ tokens after
  | element tag inside after =>
    if inside.isNothing then .opening (tag.written ++ [0x2F]) :: tokens after
    else
      .opening tag.written ::
        (tokens inside ++ .closing (Utf8.encode tag.name) :: tokens after)

end Content

namespace Lexing

/-- An escaped text, up to its end. -/
theorem settled_foldl_feed_escapeChars
    (cs pending : List Char)
    (tokens : List Token) :
    ((Utf8.encodeChars (escapeChars cs)).foldl feed
        ⟨.text (Utf8.encodeChars pending).reverse, tokens⟩).settled =
      ⟨.text [], (escapedTokens pending cs).reverse ++ tokens⟩ := by
  rw [← Piece.written_escaped, settled_foldl_feed_pieces, tokens_escaped]

/-- The name of an opening tag, from its bracket on. -/
theorem foldl_feed_name
    {tag : Tag}
    (hwf : tag.isWellFormed = true)
    (tokens : List Token) :
    (0x3C :: Utf8.encode tag.name).foldl feed ⟨.text [], tokens⟩ =
      ⟨.opening (Utf8.encode tag.name).reverse, tokens⟩ := by
  have hplain : ∀ b ∈ Utf8.encode tag.name, IsPlainByte b := fun b hb =>
    isPlainByte_of_mem_name (Tag.isName_name hwf) hb
  obtain ⟨b, bytes, hbytes, hbang, hquestion⟩ := Tag.encode_name_eq_cons hwf
  rw [hbytes] at hplain ⊢
  obtain ⟨-, hslash, -, hbracket, hquote, hapostrophe⟩ := hplain b List.mem_cons_self
  have hbegin : feed (feed ⟨.text [], tokens⟩ 0x3C) b = ⟨.opening [b], tokens⟩ := by
    simp [feed, Mode.step, Mode.stepOpened, Mode.flushText, hslash, hbang, hquestion, hbracket,
      hquote, hapostrophe]
  have hcollect :
      bytes.foldl feed ⟨.opening [b], tokens⟩ = ⟨.opening (bytes.reverse ++ [b]), tokens⟩ := by
    apply foldl_feed_collect Mode.opening
    intro x hx seen
    obtain ⟨-, -, -, hbracket, hquote, hapostrophe⟩ := hplain x (List.mem_cons_of_mem b hx)
    simp [Mode.step, hbracket, hquote, hapostrophe]
  rw [List.foldl_cons, List.foldl_cons, hbegin, hcollect, List.reverse_cons]

/-- An attribute goes into the tag that it belongs to, whatever its value holds. -/
theorem foldl_feed_attribute
    {a : String × String}
    (hkey : isName a.1 = true)
    (seen : Bytes)
    (tokens : List Token) :
    (Utf8.encodeChars (Tag.writeAttribute a)).foldl feed ⟨.opening seen, tokens⟩ =
      ⟨.opening ((Utf8.encodeChars (Tag.writeAttribute a)).reverse ++ seen), tokens⟩ := by
  have hblank : feed ⟨.opening seen, tokens⟩ 0x20 = ⟨.opening (0x20 :: seen), tokens⟩ := by
    simp [feed, Mode.step]
  have hcollectKey :
      ∀ seen, (RawAttribute.written a).key.foldl feed ⟨.opening seen, tokens⟩ =
        ⟨.opening ((RawAttribute.written a).key.reverse ++ seen), tokens⟩ := by
    intro seen
    apply foldl_feed_collect Mode.opening
    intro b hb seen
    obtain ⟨-, -, -, hbracket, hquote, hapostrophe⟩ := isPlainByte_of_mem_name hkey hb
    simp [Mode.step, hbracket, hquote, hapostrophe]
  have hquote :
      ∀ seen, feed (feed ⟨.opening seen, tokens⟩ 0x3D) 0x22 =
        ⟨.openingQuote (0x22 :: 0x3D :: seen) 0x22, tokens⟩ := by
    intro seen
    simp [feed, Mode.step]
  have hcollectValue :
      ∀ seen, (RawAttribute.written a).value.foldl feed ⟨.openingQuote seen 0x22, tokens⟩ =
        ⟨.openingQuote ((RawAttribute.written a).value.reverse ++ seen) 0x22, tokens⟩ := by
    intro seen
    apply foldl_feed_collect fun seen => Mode.openingQuote seen 0x22
    intro b hb seen
    have hne : b ≠ 0x22 := fun h => RawAttribute.quote_not_mem_value a (h ▸ hb)
    simp [Mode.step, hne]
  have hend :
      ∀ seen, feed ⟨.openingQuote seen 0x22, tokens⟩ 0x22 = ⟨.opening (0x22 :: seen), tokens⟩ := by
    intro seen
    simp [feed, Mode.step]
  rw [encodeChars_writeAttribute, List.foldl_cons, hblank, List.foldl_append, hcollectKey,
    List.foldl_cons, List.foldl_cons, hquote, List.foldl_append, hcollectValue, List.foldl_cons,
    List.foldl_nil, hend]
  simp

/-- A written tag, from its first bracket up to its last. -/
theorem foldl_feed_written
    {tag : Tag}
    (hwf : tag.isWellFormed = true)
    (tokens : List Token) :
    (0x3C :: tag.written).foldl feed ⟨.text [], tokens⟩ =
      ⟨.opening tag.written.reverse, tokens⟩ := by
  have hattributes :
      ∀ (attributes : List (String × String)) (seen : Bytes),
        (∀ a ∈ attributes, isName a.1 = true) →
        (Utf8.encodeChars (attributes.flatMap Tag.writeAttribute)).foldl feed
            ⟨.opening seen, tokens⟩ =
          ⟨.opening ((Utf8.encodeChars (attributes.flatMap Tag.writeAttribute)).reverse ++ seen),
            tokens⟩ := by
    intro attributes
    induction attributes with
    | nil => simp
    | cons a attributes ih =>
      intro seen hkeys
      rw [List.flatMap_cons, Utf8.encodeChars_append, List.foldl_append,
        foldl_feed_attribute (hkeys a List.mem_cons_self),
        ih _ fun x hx => hkeys x (List.mem_cons_of_mem a hx)]
      simp
  rw [Tag.written, ← List.cons_append, List.foldl_append, foldl_feed_name hwf,
    hattributes tag.attributes _ fun a ha => Tag.isName_key hwf ha]
  simp

/-- A closing tag, from the slash on. -/
theorem foldl_feed_closing
    {tag : Tag}
    (hwf : tag.isWellFormed = true)
    (tokens : List Token) :
    (0x2F :: Utf8.encode tag.name ++ [0x3E]).foldl feed ⟨.opened, tokens⟩ =
      ⟨.text [], .closing (Utf8.encode tag.name) :: tokens⟩ := by
  have hcollect :
      (Utf8.encode tag.name).foldl feed ⟨.closing [], tokens⟩ =
        ⟨.closing ((Utf8.encode tag.name).reverse ++ []), tokens⟩ := by
    apply foldl_feed_collect Mode.closing
    intro b hb seen
    obtain ⟨-, -, -, hbracket, hquote, hapostrophe⟩ :=
      isPlainByte_of_mem_name (Tag.isName_name hwf) hb
    simp [Mode.step, hbracket, hquote, hapostrophe]
  have hslash : feed ⟨.opened, tokens⟩ 0x2F = ⟨.closing [], tokens⟩ := by
    simp [feed, Mode.step, Mode.stepOpened]
  rw [List.cons_append, List.foldl_cons, hslash, List.foldl_append, hcollect]
  simp [feed, Mode.step]

end Lexing

namespace Tag

/-- An opening tag is its bracket, what is written inside, and the rest. -/
theorem encodeChars_writeOpening
    (tag : Tag)
    (rest : List Char) :
    Utf8.encodeChars (tag.writeOpening rest) = 0x3C :: tag.written ++ Utf8.encodeChars rest := by
  have hbracket : ∀ cs : List Char, Utf8.encodeChars ('<' :: cs) = 0x3C :: Utf8.encodeChars cs :=
    fun _ => rfl
  rw [writeOpening, List.cons_append, hbracket]
  simp [written]

theorem encodeChars_writeClosing
    (tag : Tag)
    (rest : List Char) :
    Utf8.encodeChars (tag.writeClosing rest) =
      0x3C :: (0x2F :: Utf8.encode tag.name ++ [0x3E]) ++ Utf8.encodeChars rest := by
  have hopened :
      ∀ cs : List Char, Utf8.encodeChars ('<' :: '/' :: cs) = 0x3C :: 0x2F :: Utf8.encodeChars cs :=
    fun _ => rfl
  have hbracket : ∀ cs : List Char, Utf8.encodeChars ('>' :: cs) = 0x3E :: Utf8.encodeChars cs :=
    fun _ => rfl
  rw [writeClosing, List.cons_append, List.cons_append, hopened, Utf8.encodeChars_append, hbracket]
  simp

end Tag

namespace Content

theorem write_eq_append
    (c : Content)
    (rest : List Char) :
    c.write rest = c.write [] ++ rest := by
  rw [← write_append, List.nil_append]

theorem encodeChars_write_alone
    (tag : Tag)
    (after : Content) :
    Utf8.encodeChars ((element tag nothing after).write []) =
      0x3C :: tag.written ++ 0x2F :: 0x3E :: Utf8.encodeChars (after.write []) := by
  have hend :
      ∀ cs : List Char, Utf8.encodeChars ('/' :: '>' :: cs) = 0x2F :: 0x3E :: Utf8.encodeChars cs :=
    fun _ => rfl
  rw [write, isNothing, if_pos rfl, Tag.encodeChars_writeOpening, hend]

theorem encodeChars_write_element
    {inside : Content}
    (hinside : inside.isNothing = false)
    (tag : Tag)
    (after : Content) :
    Utf8.encodeChars ((element tag inside after).write []) =
      0x3C :: tag.written ++ 0x3E :: (Utf8.encodeChars (inside.write []) ++
        (0x3C :: (0x2F :: Utf8.encode tag.name ++ [0x3E]) ++
          Utf8.encodeChars (after.write []))) := by
  have hbracket : ∀ cs : List Char, Utf8.encodeChars ('>' :: cs) = 0x3E :: Utf8.encodeChars cs :=
    fun _ => rfl
  rw [write, hinside, if_neg Bool.false_ne_true, Tag.encodeChars_writeOpening, hbracket,
    write_eq_append inside, Utf8.encodeChars_append, Tag.encodeChars_writeClosing]

/-- Content that does not begin with a text begins with a bracket. -/
theorem encodeChars_write_eq_cons
    {c : Content}
    (hbegin : c.beginsWithText = false)
    (hc : c.isNothing = false) :
    ∃ bytes, Utf8.encodeChars (c.write []) = 0x3C :: bytes := by
  cases c with
  | nothing => cases hc
  | text v after => cases hbegin
  | element tag inside after =>
    rw [write, Tag.encodeChars_writeOpening]
    exact ⟨_, rfl⟩

end Content

namespace Lexing

/-- What follows a text can be read as if the text had been completed before. -/
theorem settled_foldl_feed_after_text
    {after : Content}
    (hbegin : after.beginsWithText = false)
    (l : Lexing) :
    ((Utf8.encodeChars (after.write [])).foldl feed l).settled =
      ((Utf8.encodeChars (after.write [])).foldl feed l.settled).settled := by
  cases hafter : after.isNothing with
  | true =>
    obtain ⟨mode, tokens⟩ := l
    rw [Content.eq_nothing_of_isNothing hafter]
    cases mode <;> rfl
  | false =>
    obtain ⟨bytes, hbytes⟩ := Content.encodeChars_write_eq_cons hbegin hafter
    rw [hbytes, List.foldl_cons, List.foldl_cons, feed_settled]

/-- Written content is cut into its tokens. -/
theorem settled_foldl_feed_write
    {c : Content}
    (hjoined : c.isJoined = true)
    (hwf : c.isWellFormed = true)
    (tokens : List Token) :
    ((Utf8.encodeChars (c.write [])).foldl feed ⟨.text [], tokens⟩).settled =
      ⟨.text [], c.tokens.reverse ++ tokens⟩ := by
  induction c generalizing tokens with
  | nothing => rfl
  | text v after ih =>
    simp only [Content.isJoined, Bool.and_eq_true, Bool.not_eq_true'] at hjoined
    obtain ⟨⟨-, hbegin⟩, hafter⟩ := hjoined
    have htext := settled_foldl_feed_escapeChars v.toList [] tokens
    rw [Content.write, Utf8.encodeChars_append, List.foldl_append,
      settled_foldl_feed_after_text hbegin]
    rw [show (Utf8.encodeChars []).reverse = ([] : Bytes) from rfl] at htext
    rw [htext, ih hafter hwf, Content.tokens]
    simp
  | element tag inside after ihInside ihAfter =>
    simp only [Content.isJoined, Bool.and_eq_true] at hjoined
    simp only [Content.isWellFormed, Bool.and_eq_true] at hwf
    obtain ⟨⟨htag, hinside⟩, hafter⟩ := hwf
    cases hnothing : inside.isNothing with
    | true =>
      have hslash :
          feed ⟨.opening tag.written.reverse, tokens⟩ 0x2F =
            ⟨.opening (0x2F :: tag.written.reverse), tokens⟩ := by
        simp [feed, Mode.step]
      rw [Content.eq_nothing_of_isNothing hnothing, Content.encodeChars_write_alone,
        List.foldl_append, foldl_feed_written htag, List.foldl_cons, List.foldl_cons, hslash,
        feed_openingEnd, ihAfter hjoined.2 hafter, Content.tokens]
      simp [Content.isNothing]
    | false =>
      rw [Content.encodeChars_write_element hnothing, List.foldl_append, foldl_feed_written htag,
        List.foldl_cons, feed_openingEnd, List.reverse_reverse, List.foldl_append,
        List.foldl_append, List.foldl_cons, ← feed_settled, ihInside hjoined.1 hinside,
        feed_opened, foldl_feed_closing htag, ihAfter hjoined.2 hafter, Content.tokens, hnothing]
      simp [Mode.flushText]

end Lexing

namespace Element

theorem isJoined_alone
    (e : Element) :
    e.alone.isJoined = e.content.isJoined := by
  simp [alone, Content.isJoined]

theorem isWellFormed_alone
    (e : Element) :
    e.alone.isWellFormed = e.isWellFormed := by
  simp [alone, Content.isWellFormed, isWellFormed]

end Element

namespace Token

variable {e : Element}

/-- What follows complete markup is cut into its own tokens. -/
theorem foldl_feed_compact
    (hjoined : e.content.isJoined = true)
    (hwf : e.isWellFormed = true)
    (tokens : List Token) :
    ((Utf8.encode e.compact).foldl Lexing.feed ⟨.text [], tokens⟩).finish =
      ⟨tokens.reverse ++ e.alone.tokens, none⟩ := by
  rw [← Element.isJoined_alone] at hjoined
  rw [← Element.isWellFormed_alone] at hwf
  rw [Element.compact, Utf8.encode_ofList, ← Lexing.finish_settled,
    Lexing.settled_foldl_feed_write hjoined hwf]
  simp [Lexing.finish, Mode.flushText]

theorem trail_compact
    (hjoined : e.content.isJoined = true)
    (hwf : e.isWellFormed = true) :
    trail (Utf8.encode e.compact) = ⟨e.alone.tokens, none⟩ := by
  have hmark : withoutMark (Utf8.encode e.compact) = Utf8.encode e.compact := by
    obtain ⟨bytes, hbytes⟩ :=
      Content.encodeChars_write_eq_cons (c := e.alone) rfl rfl
    rw [Element.compact, Utf8.encode_ofList, hbytes]
    rfl
  rw [trail, hmark]
  exact foldl_feed_compact hjoined hwf []

/-- The declaration is one token, whatever follows it. -/
theorem trail_declaration
    (bytes : Bytes) :
    trail (Utf8.encode declaration ++ bytes) =
      (bytes.foldl Lexing.feed ⟨.text [], [.aside]⟩).finish := by
  have hmark : withoutMark (Utf8.encode declaration ++ bytes) =
      Utf8.encode declaration ++ bytes := rfl
  have hdeclaration :
      (Utf8.encode declaration).foldl Lexing.feed {} = ⟨.text [], [.aside]⟩ := by
    decide +kernel
  rw [trail, hmark, List.foldl_append, hdeclaration]

theorem trail_document
    (hjoined : e.content.isJoined = true)
    (hwf : e.isWellFormed = true) :
    trail (Utf8.encode e.document) = ⟨.aside :: e.alone.tokens, none⟩ := by
  rw [Element.document, Utf8.encode_append, trail_declaration]
  exact foldl_feed_compact hjoined hwf [.aside]

end Token
end Xml
end PimDav
