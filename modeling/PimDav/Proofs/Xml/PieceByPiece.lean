import PimDav.Proofs.Xml.RoundTrip

/-!
# Elements with text in pieces

An element may have its text written in pieces.  It is read as the element with one text, in
which every piece stands for what it means.
-/

namespace PimDav
namespace Xml

namespace Piece

/-- An element with pieces of text in it. -/
def writtenIn
    (tag : Tag)
    (ps : List Piece) : List Char :=
  tag.writeOpening ('>' :: (ps.flatMap written ++ tag.writeClosing []))

def tokensIn
    (tag : Tag)
    (ps : List Piece) : List Token :=
  .opening tag.written :: (tokens [] ps ++ [.closing (Utf8.encode tag.name)])

end Piece

namespace Lexing

/-- An element with pieces of text in it is cut into its tokens. -/
theorem foldl_feed_writtenIn
    {tag : Tag}
    (hwf : tag.isWellFormed = true)
    (ps : List Piece)
    (tokens : List Token) :
    ((Utf8.encodeChars (Piece.writtenIn tag ps)).foldl feed ⟨.text [], tokens⟩).finish =
      ⟨tokens.reverse ++ Piece.tokensIn tag ps, none⟩ := by
  have hbracket : ∀ cs : List Char, Utf8.encodeChars ('>' :: cs) = 0x3E :: Utf8.encodeChars cs :=
    fun _ => rfl
  have hpieces := settled_foldl_feed_pieces ps [] (.opening tag.written :: tokens)
  rw [Utf8.encodeChars_nil, List.reverse_nil] at hpieces
  -- The bracket of the closing tag completes the last piece.
  rw [Piece.writtenIn, Tag.encodeChars_writeOpening, hbracket, Utf8.encodeChars_append,
    Tag.encodeChars_writeClosing, List.foldl_append, foldl_feed_written hwf, List.foldl_cons,
    feed_openingEnd, List.reverse_reverse, List.foldl_append, Utf8.encodeChars_nil,
    List.append_nil, List.foldl_cons, ← feed_settled, hpieces, feed_opened,
    foldl_feed_closing hwf]
  simp [finish, Mode.flushText, Piece.tokensIn]

end Lexing

namespace Progress

/-- The tokens of an element with pieces of text in it make it the root. -/
theorem foldlM_take_tokensIn
    {tag : Tag}
    (hwf : tag.isWellFormed = true)
    (ps : List Piece) :
    (Piece.tokensIn tag ps).foldlM take {} =
      .ok ⟨[], ⟨[], some
        (Element.text ⟨tag.placed (tag.declared Binding.builtin), .nothing⟩
          (String.ofList (ps.flatMap Piece.meaning)))⟩⟩ := by
  rw [Piece.tokensIn, foldlM_take_cons (take_opening hwf [] {}),
    foldlM_take_append (foldlM_take_pieces _ _ _ ps [] _),
    foldlM_take_cons (take_closing hwf _ _ _ _ _)]
  rfl

end Progress

/-- Text inside an element is read piece by piece: a run as it is, a reference as what it means,
a section as it is.  The element that is read holds what the pieces mean in one text, and no text
when they mean nothing.  A declaration before the element makes no difference. -/
theorem parse_pieces
    {tag : Tag}
    (hwf : tag.isWellFormed = true)
    (pieces : List Piece) :
    let meaning := String.ofList (pieces.flatMap Piece.meaning)
    let read : Element :=
      ⟨tag.placed (tag.declared Binding.builtin),
        if meaning.isEmpty then .nothing else .text meaning .nothing⟩
    parse (Utf8.encodeChars (Piece.writtenIn tag pieces)) = .ok read ∧
      parse (Utf8.encode declaration ++ Utf8.encodeChars (Piece.writtenIn tag pieces)) =
        .ok read := by
  intro meaning read
  have hread : Element.text ⟨tag.placed (tag.declared Binding.builtin), .nothing⟩ meaning = read :=
    rfl
  have hwithout : withoutMark (Utf8.encodeChars (Piece.writtenIn tag pieces)) =
      Utf8.encodeChars (Piece.writtenIn tag pieces) := by
    rw [Piece.writtenIn, Tag.encodeChars_writeOpening]
    rfl
  constructor
  · rw [parse_eq, Token.trail, hwithout, Lexing.foldl_feed_writtenIn hwf, List.reverse_nil,
      List.nil_append, Progress.foldlM_take_tokensIn hwf, hread]
    rfl
  · have haside : Progress.take {} .aside = .ok {} := rfl
    rw [parse_eq, Token.trail_declaration, Lexing.foldl_feed_writtenIn hwf, List.reverse_singleton,
      List.singleton_append, Progress.foldlM_take_cons haside, Progress.foldlM_take_tokensIn hwf,
      hread]
    rfl

/-- Pieces that would be other markup if they were read together or twice. -/
theorem parse_pieces_thorny :
    let tag : Tag := { name := "a", attributes := [("k", "<")] }
    let pieces : List Piece :=
      [.run "\r\n]]> ".toList (by decide +kernel),
        .reference "amp".toList ['&'] (.known (by decide +kernel)),
        .run "lt;".toList (by decide +kernel),
        .reference "nbsp".toList "&nbsp;".toList (.unknown (by decide +kernel) (by decide +kernel)),
        .reference "#x026".toList ['&'] (.hexadecimal (by decide +kernel) (by decide +kernel)),
        .cdata "<&amp;]]".toList (by decide +kernel),
        .run [] (by decide +kernel),
        .reference "#62".toList ['>'] (.decimal (by decide +kernel) (by decide +kernel))]
    let written := Utf8.encode
      "<a k=\"&lt;\">\r\n]]> &amp;lt;&nbsp;&#x026;<![CDATA[<&amp;]]]]>&#62;</a>"
    let read : Element := ⟨tag, .text "\r\n]]> &lt;&nbsp;&<&amp;]]>" .nothing⟩
    tag.isWellFormed = true ∧
      Utf8.encodeChars (Piece.writtenIn tag pieces) = written ∧
      parse written = .ok read ∧ parse (Utf8.encode declaration ++ written) = .ok read := by
  intro tag pieces written read
  have hwf : tag.isWellFormed = true := by decide +kernel
  have hwritten : Utf8.encodeChars (Piece.writtenIn tag pieces) = written := by decide +kernel
  have hmeaning : String.ofList (pieces.flatMap Piece.meaning) =
      "\r\n]]> &lt;&nbsp;&<&amp;]]>" := by decide +kernel
  have hplaced : tag.placed (tag.declared Binding.builtin) = tag := by decide +kernel
  have hparse := parse_pieces hwf pieces
  simp only [hwritten, hmeaning, hplaced] at hparse
  exact ⟨hwf, hwritten, hparse⟩

end Xml
end PimDav
