import PimDav.Proofs.Xml.Built
import PimDav.Proofs.Xml.Escape
import PimDav.Proofs.Xml.Feeding
import PimDav.Proofs.Xml.Progress
import PimDav.Proofs.Xml.References

/-!
# Text in pieces

The text inside an element may be written in pieces: runs of characters as they are, references,
and sections in which nothing is markup.  Each piece is read by itself, whatever stands beside
it, and what the pieces mean is joined to one text.  Escaped text is a case of this.
-/

namespace PimDav
namespace Xml

/-- A reserved character is what the reference to it means. -/
theorem means_of_escapeName?
    {c : Char}
    {name : List Char}
    (hname : escapeName? c = some name) :
    Means name [c] := by
  have hall : ∀ entry ∈ knownNames, escapeName? entry.2 = some entry.1.toList := by decide
  obtain ⟨known, hknown⟩ : ∃ known, (known, c) ∈ knownNames := by
    rcases eq_of_escapeName?_eq_some hname with rfl | rfl | rfl | rfl | rfl <;> simp [knownNames]
  obtain rfl := Option.some.inj (hname.symm.trans (hall _ hknown))
  exact .known hknown

/-- What a section in which nothing is markup begins with. -/
def sectionStart : List Char :=
  "<![CDATA[".toList

/-- A piece of text as it can be written inside an element. -/
inductive Piece where
  /-- Characters that stand for themselves. -/
  | run
    (cs : List Char)
    (plain : '<' ∉ cs ∧ '&' ∉ cs)
  | reference
    (name meaning : List Char)
    (means : Means name meaning)
  /-- A section, up to the first place that could be its end. -/
  | cdata
    (cs : List Char)
    (endless : ¬ [']', ']', '>'] <:+: cs)

namespace Piece

def written : Piece → List Char
  | run cs _ => cs
  | reference name _ _ => '&' :: name ++ [';']
  | cdata cs _ => sectionStart ++ cs ++ [']', ']', '>']

def meaning : Piece → List Char
  | run cs _ => cs
  | reference _ meaning _ => meaning
  | cdata cs _ => cs

/-- The token of a piece that is more than a part of a run of characters. -/
def token? : Piece → Option Token
  | run .. => none
  | reference name _ _ => some (.reference (Utf8.encodeChars name))
  | cdata cs _ => some (.cdata (Utf8.encodeChars cs))

/-- The tokens of pieces that follow a run of characters. -/
def tokens (pending : List Char) : List Piece → List Token
  | [] => Mode.flushText (Utf8.encodeChars pending).reverse
  | p :: ps =>
    match p.token? with
    | none => tokens (pending ++ p.written) ps
    | some t => Mode.flushText (Utf8.encodeChars pending).reverse ++ t :: tokens [] ps

variable {p : Piece}

theorem meaning_of_token?_eq_none
    (hp : p.token? = none) :
    p.meaning = p.written := by
  cases p with
  | run cs plain => rfl
  | reference name meaning means => cases hp
  | cdata cs endless => cases hp

/-- A character as it is escaped: it stands for itself or is a reference. -/
def ofChar (c : Char) : Piece :=
  match hname : escapeName? c with
  | none => run [c] (by grind [escapeName?_eq_none_iff])
  | some name => reference name [c] (means_of_escapeName? hname)

/-- Escaped characters as pieces. -/
def escaped (cs : List Char) : List Piece :=
  cs.map ofChar

theorem written_ofChar
    (c : Char) :
    (ofChar c).written = escapeChar c := by
  rw [ofChar]
  split
  next hname => exact (escapeChar_of_none hname).symm
  next name hname => exact (escapeChar_of_some hname).symm

theorem meaning_ofChar
    (c : Char) :
    (ofChar c).meaning = [c] := by
  rw [ofChar]
  split <;> rfl

theorem token?_ofChar
    (c : Char) :
    (ofChar c).token? =
      (escapeName? c).map fun name => .reference (Utf8.encodeChars name) := by
  symm
  rw [ofChar]
  split
  next hname => exact Option.map_eq_none_iff.2 hname
  next name hname => exact Option.map_eq_some_iff.2 ⟨name, hname, rfl⟩

theorem written_escaped
    (cs : List Char) :
    (escaped cs).flatMap written = escapeChars cs := by
  rw [escaped, List.flatMap_map, escapeChars]
  simp only [written_ofChar]

theorem meaning_escaped
    (cs : List Char) :
    (escaped cs).flatMap meaning = cs := by
  rw [escaped, List.flatMap_map]
  simp [meaning_ofChar]

end Piece

namespace Lexing

/-- The characters of a section, as long as nothing in it could be its end. -/
theorem foldl_feed_cdata
    {bytes : Bytes}
    (hendless : ¬ [0x5D, 0x5D, 0x3E] <:+: bytes)
    (tokens : List Token) :
    bytes.foldl feed ⟨.cdata [], tokens⟩ = ⟨.cdata bytes.reverse, tokens⟩ := by
  induction bytes using List.reverseRecOn with
  | nil => rfl
  | append_singleton bytes b ih =>
    have hbefore : ¬ [0x5D, 0x5D, 0x3E] <:+: bytes := fun hend =>
      hendless (hend.trans (List.prefix_append bytes [b]).isInfix)
    have hstep : Mode.step (.cdata bytes.reverse) b = (.cdata (b :: bytes.reverse), []) := by
      rw [Mode.step]
      -- The section would end here.
      intro content hb hseen
      obtain rfl := beq_iff_eq.1 hb
      have hbytes : bytes = content.reverse ++ [0x5D, 0x5D] := by
        rw [← List.reverse_reverse bytes, hseen]
        simp
      rw [hbytes] at hendless
      exact hendless ⟨content.reverse, [], by simp⟩
    rw [List.foldl_append, ih hbefore, List.foldl_cons, List.foldl_nil, feed, hstep]
    simp

/-- A section begins where a text ends. -/
theorem foldl_feed_sectionStart
    (seen : Bytes)
    (tokens : List Token) :
    (Utf8.encodeChars sectionStart).foldl feed ⟨.text seen, tokens⟩ =
      ⟨.cdata [], Mode.flushText seen ++ tokens⟩ := by
  have hbytes : Utf8.encodeChars sectionStart = 0x3C :: 0x21 :: 0x5B :: Utf8.encode "CDATA[" := by
    decide +kernel
  have hkeyword : Utf8.encode "CDATA[" = [0x43, 0x44, 0x41, 0x54, 0x41, 0x5B] := by
    decide +kernel
  rw [hbytes, List.foldl_cons, feed_opened]
  simp [hkeyword, feed, Mode.step, Mode.stepOpened]

/-- What could be the end of a section is so for its characters and for its bytes. -/
theorem end_infix_of_encodeChars
    {cs : List Char}
    (hend : [0x5D, 0x5D, 0x3E] <:+: Utf8.encodeChars cs) :
    [']', ']', '>'] <:+: cs := by
  obtain ⟨before, after, hwhole⟩ := hend
  rw [List.append_assoc, List.cons_append] at hwhole
  obtain ⟨front, first, rfl, -, hfirst⟩ :=
    Utf8.exists_of_encodeChars_eq_append (by decide) hwhole.symm
  obtain ⟨second, rfl, hsecond⟩ := Utf8.exists_of_encodeChars_eq_cons (by decide) hfirst
  obtain ⟨rest, rfl, -⟩ := Utf8.exists_of_encodeChars_eq_cons (by decide) hsecond
  exact ⟨front, rest, by simp⟩

variable {p : Piece}

theorem foldl_feed_piece_of_none
    (hp : p.token? = none)
    (seen : Bytes)
    (tokens : List Token) :
    (Utf8.encodeChars p.written).foldl feed ⟨.text seen, tokens⟩ =
      ⟨.text ((Utf8.encodeChars p.written).reverse ++ seen), tokens⟩ := by
  cases p with
  | run cs plain =>
    exact foldl_feed_run plain.1 plain.2 seen tokens
  | reference name meaning means => cases hp
  | cdata cs endless => cases hp

/-- A piece with a token of its own completes the text before it. -/
theorem foldl_feed_piece
    {t : Token}
    (hp : p.token? = some t)
    (seen : Bytes)
    (tokens : List Token) :
    (Utf8.encodeChars p.written).foldl feed ⟨.text seen, tokens⟩ =
      ⟨.text [], t :: (Mode.flushText seen ++ tokens)⟩ := by
  cases p with
  | run cs plain => cases hp
  | reference name meaning means =>
    obtain rfl := Option.some.inj hp
    exact foldl_feed_reference (fun d hd => means.ne_of_mem hd) seen tokens
  | cdata cs endless =>
    obtain rfl := Option.some.inj hp
    have hend : Utf8.encodeChars [']', ']', '>'] = [0x5D, 0x5D, 0x3E] := by decide
    rw [Piece.written, Utf8.encodeChars_append, Utf8.encodeChars_append, List.foldl_append,
      List.foldl_append, foldl_feed_sectionStart,
      foldl_feed_cdata fun h => endless (end_infix_of_encodeChars h), hend]
    simp [feed, Mode.step]

/-- Pieces are cut into their tokens, up to the end of the text. -/
theorem settled_foldl_feed_pieces
    (ps : List Piece)
    (pending : List Char)
    (tokens : List Token) :
    ((Utf8.encodeChars (ps.flatMap Piece.written)).foldl feed
        ⟨.text (Utf8.encodeChars pending).reverse, tokens⟩).settled =
      ⟨.text [], (Piece.tokens pending ps).reverse ++ tokens⟩ := by
  induction ps generalizing pending tokens with
  | nil => simp [settled, Piece.tokens, reverse_flushText]
  | cons p ps ih =>
    rw [List.flatMap_cons, Utf8.encodeChars_append, List.foldl_append]
    cases hp : p.token? with
    | none =>
      have hpending :
          (Utf8.encodeChars p.written).reverse ++ (Utf8.encodeChars pending).reverse =
            (Utf8.encodeChars (pending ++ p.written)).reverse := by
        simp
      rw [foldl_feed_piece_of_none hp, hpending, ih, Piece.tokens, hp]
    | some t =>
      have hrest := ih [] (t :: (Mode.flushText (Utf8.encodeChars pending).reverse ++ tokens))
      rw [Utf8.encodeChars_nil, List.reverse_nil] at hrest
      rw [foldl_feed_piece hp, hrest, Piece.tokens, hp]
      simp [reverse_flushText]

end Lexing

namespace Progress

/-- Pending characters of a text go into the open element. -/
theorem foldlM_take_flushText
    (pending : List Char)
    (scopes : List Scope)
    (e : Element)
    (outer : List Element)
    (root : Option Element) :
    (Mode.flushText (Utf8.encodeChars pending).reverse).foldlM take
        ⟨scopes, ⟨e :: outer, root⟩⟩ =
      .ok ⟨scopes, ⟨e.text (String.ofList pending) :: outer, root⟩⟩ := by
  cases pending with
  | nil =>
    have hsame : e.text "" = e := by simp [Element.text]
    have hempty : String.ofList [] = "" := rfl
    rw [hempty, hsame]
    rfl
  | cons c cs =>
    have hne : Utf8.encodeChars (c :: cs) ≠ [] := Utf8.encodeChars_ne_nil (by simp)
    have hflush :
        Mode.flushText (Utf8.encodeChars (c :: cs)).reverse =
          [.text (Utf8.encodeChars (c :: cs))] := by
      simp [Mode.flushText, hne]
    have htake :
        take ⟨scopes, ⟨e :: outer, root⟩⟩ (.text (Utf8.encodeChars (c :: cs))) =
          .ok ⟨scopes,
            ⟨e.text (Utf8.decodeLossy (Utf8.encodeChars (c :: cs))) :: outer, root⟩⟩ := by
      rfl
    rw [hflush, List.foldlM_cons, htake, Utf8.decodeLossy_encodeChars]
    rfl

variable
  {p : Piece}
  (scopes : List Scope)
  (outer : List Element)
  (root : Option Element)

/-- The token of a piece adds to the open element what the piece means. -/
theorem take_piece
    {t : Token}
    (hp : p.token? = some t)
    (e : Element) :
    take ⟨scopes, ⟨e :: outer, root⟩⟩ t =
      .ok ⟨scopes, ⟨e.text (String.ofList p.meaning) :: outer, root⟩⟩ := by
  cases p with
  | run cs plain => cases hp
  | reference name meaning means =>
    obtain rfl := Option.some.inj hp
    have hread : referenceText (Utf8.decodeLossy (Utf8.encodeChars name)) =
        String.ofList meaning := by
      rw [Utf8.decodeLossy_encodeChars, means.referenceText_eq]
    rw [Piece.meaning, ← hread]
    rfl
  | cdata cs endless =>
    obtain rfl := Option.some.inj hp
    rw [Piece.meaning, ← Utf8.decodeLossy_encodeChars]
    rfl

/-- The tokens of pieces add to the open element all that the pieces mean, joined. -/
theorem foldlM_take_pieces
    (ps : List Piece)
    (pending : List Char)
    (e : Element) :
    (Piece.tokens pending ps).foldlM take ⟨scopes, ⟨e :: outer, root⟩⟩ =
      .ok ⟨scopes,
        ⟨e.text (String.ofList (pending ++ ps.flatMap Piece.meaning)) :: outer, root⟩⟩ := by
  induction ps generalizing pending e with
  | nil => rw [Piece.tokens, foldlM_take_flushText, List.flatMap_nil, List.append_nil]
  | cons p ps ih =>
    cases hp : p.token? with
    | none =>
      rw [Piece.tokens, hp, List.flatMap_cons, Piece.meaning_of_token?_eq_none hp,
        ← List.append_assoc]
      exact ih (pending ++ p.written) e
    | some t =>
      rw [Piece.tokens, hp, foldlM_take_append (foldlM_take_flushText pending scopes e outer root),
        foldlM_take_cons (take_piece scopes outer root hp _), ih, Element.text_text,
        Element.text_text, ← String.ofList_append, ← String.ofList_append, List.nil_append,
        List.flatMap_cons]

end Progress
end Xml
end PimDav
