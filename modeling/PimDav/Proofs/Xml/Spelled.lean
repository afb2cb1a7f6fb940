import PimDav.Proofs.Xml.Places
import PimDav.Proofs.Xml.Prolog

/-!
# Documents with text in pieces

In a document every text may be written in pieces, with comments and instructions between them,
and an element without content may be written with one tag or with two.  However a document
is spelled, it is read as the element that it means.
-/

namespace PimDav
namespace Xml

/-- The content of an element as it can be written: pieces of text in front of everything that
begins with a bracket, and at the end. -/
inductive Spelled where
  | last (pieces : List Piece)
  /-- A comment, an instruction or the like, from its bracket on. -/
  | aside
    (pieces : List Piece)
    (raw : Bytes)
    (unseen : (0x3C :: raw).foldl Lexing.feed {} = ⟨.text [], [.aside]⟩)
    (after : Spelled)
  /-- An element of one tag. -/
  | empty
    (pieces : List Piece)
    (tag : Tag)
    (after : Spelled)
  | element
    (pieces : List Piece)
    (tag : Tag)
    (inside after : Spelled)

namespace Tag

/-- The bytes that open an element. -/
def opens (tag : Tag) : Bytes :=
  0x3C :: tag.written ++ [0x3E]

/-- The bytes that open and close an element. -/
def opensAndCloses (tag : Tag) : Bytes :=
  0x3C :: tag.written ++ [0x2F, 0x3E]

/-- The bytes that close an element. -/
def closes (tag : Tag) : Bytes :=
  0x3C :: (0x2F :: Utf8.encode tag.name ++ [0x3E])

end Tag

namespace Piece

/-- The bytes of pieces. -/
def bytes (ps : List Piece) : Bytes :=
  Utf8.encodeChars (ps.flatMap written)

/-- The text that pieces mean together. -/
def said (ps : List Piece) : String :=
  String.ofList (ps.flatMap meaning)

end Piece

namespace Spelled

def written : Spelled → Bytes
  | last ps => Piece.bytes ps
  | aside ps raw _ after => Piece.bytes ps ++ (0x3C :: raw ++ written after)
  | empty ps tag after => Piece.bytes ps ++ (tag.opensAndCloses ++ written after)
  | element ps tag inside after =>
    Piece.bytes ps ++ (tag.opens ++ (written inside ++ (tag.closes ++ written after)))

/-- Whether all tags at any depth are well-formed. -/
def isWellFormed : Spelled → Bool
  | last _ => true
  | aside _ _ _ after => isWellFormed after
  | empty _ tag after => tag.isWellFormed && isWellFormed after
  | element _ tag inside after => tag.isWellFormed && isWellFormed inside && isWellFormed after

def tokens : Spelled → List Token
  | last ps => Piece.tokens [] ps
  | aside ps _ _ after => Piece.tokens [] ps ++ .aside :: tokens after
  | empty ps tag after =>
    Piece.tokens [] ps ++ .opening (tag.written ++ [0x2F]) :: tokens after
  | element ps tag inside after =>
    Piece.tokens [] ps ++ .opening tag.written ::
      (tokens inside ++ .closing (Utf8.encode tag.name) :: tokens after)

/-- A content and then what is spelled. -/
def addTo (c : Content) : Spelled → Content
  | last ps => c.addText (Piece.said ps)
  | aside ps _ _ after => after.addTo (c.addText (Piece.said ps))
  | empty ps tag after => after.addTo ((c.addText (Piece.said ps)).addElement { tag })
  | element ps tag inside after =>
    after.addTo ((c.addText (Piece.said ps)).addElement ⟨tag, inside.addTo .nothing⟩)

/-- The content that is spelled. -/
def meaning (sp : Spelled) : Content :=
  sp.addTo .nothing

/-- All text that is spelled, at any depth. -/
def said : Spelled → String
  | last ps => Piece.said ps
  | aside ps _ _ after => Piece.said ps ++ said after
  | empty ps _ after => Piece.said ps ++ said after
  | element ps _ inside after => Piece.said ps ++ said inside ++ said after

theorem characters_addTo
    (sp : Spelled)
    (c : Content) :
    (sp.addTo c).characters = c.characters ++ sp.said.toList := by
  induction sp generalizing c with
  | last ps => simp [addTo, said]
  | aside ps raw unseen after ih => simp [addTo, said, ih]
  | empty ps tag after ih => simp [addTo, said, ih, Content.characters]
  | element ps tag inside after ihInside ihAfter =>
    simp [addTo, said, ihInside, ihAfter, Content.characters]

/-- The text of an element is what is spelled inside, piece after piece. -/
theorem textContent_meaning
    (tag : Tag)
    (sp : Spelled) :
    Element.textContent ⟨tag, sp.meaning⟩ = sp.said := by
  rw [Element.textContent, meaning, characters_addTo]
  simp [Content.characters]

end Spelled

namespace Lexing

variable {tag : Tag}

theorem foldl_feed_opens
    (hwf : tag.isWellFormed = true)
    (tokens : List Token) :
    tag.opens.foldl feed ⟨.text [], tokens⟩ = ⟨.text [], .opening tag.written :: tokens⟩ := by
  rw [Tag.opens, List.foldl_append, foldl_feed_written hwf, List.foldl_cons, feed_openingEnd,
    List.reverse_reverse, List.foldl_nil]

theorem foldl_feed_opensAndCloses
    (hwf : tag.isWellFormed = true)
    (tokens : List Token) :
    tag.opensAndCloses.foldl feed ⟨.text [], tokens⟩ =
      ⟨.text [], .opening (tag.written ++ [0x2F]) :: tokens⟩ := by
  have hslash : feed ⟨.opening tag.written.reverse, tokens⟩ 0x2F =
      ⟨.opening (0x2F :: tag.written.reverse), tokens⟩ := by
    simp [feed, Mode.step]
  rw [Tag.opensAndCloses, List.foldl_append, foldl_feed_written hwf, List.foldl_cons, hslash,
    List.foldl_cons, feed_openingEnd, List.foldl_nil]
  simp

theorem foldl_feed_closes
    (hwf : tag.isWellFormed = true)
    (tokens : List Token) :
    tag.closes.foldl feed ⟨.text [], tokens⟩ =
      ⟨.text [], .closing (Utf8.encode tag.name) :: tokens⟩ := by
  rw [Tag.closes, List.foldl_cons, feed_opened, foldl_feed_closing hwf]
  rfl

theorem foldl_feed_aside
    {raw : Bytes}
    (hunseen : (0x3C :: raw).foldl feed {} = ⟨.text [], [.aside]⟩)
    (tokens : List Token) :
    (0x3C :: raw).foldl feed ⟨.text [], tokens⟩ = ⟨.text [], .aside :: tokens⟩ := by
  have hbehind := foldl_feed_behind {} tokens (0x3C :: raw)
  rw [hunseen] at hbehind
  exact hbehind

/-- The bracket after a content completes it. -/
theorem foldl_feed_bracket
    {bytes markup : Bytes}
    {tokens later : List Token}
    (hbytes : (bytes.foldl feed ⟨.text [], tokens⟩).settled = ⟨.text [], later⟩)
    (hmarkup : markup.head? = some 0x3C) :
    (bytes ++ markup).foldl feed ⟨.text [], tokens⟩ = markup.foldl feed ⟨.text [], later⟩ := by
  obtain ⟨rest, rfl⟩ := List.head?_eq_some_iff.1 hmarkup
  rw [List.foldl_append, List.foldl_cons, List.foldl_cons, ← feed_settled, hbytes]

theorem settled_foldl_feed_bytes
    (ps : List Piece)
    (tokens : List Token) :
    ((Piece.bytes ps).foldl feed ⟨.text [], tokens⟩).settled =
      ⟨.text [], (Piece.tokens [] ps).reverse ++ tokens⟩ := by
  have hpieces := settled_foldl_feed_pieces ps [] tokens
  rwa [Utf8.encodeChars_nil, List.reverse_nil] at hpieces

/-- What is spelled is cut into its tokens. -/
theorem settled_foldl_feed_spelled
    {sp : Spelled}
    (hwf : sp.isWellFormed = true)
    (tokens : List Token) :
    (sp.written.foldl feed ⟨.text [], tokens⟩).settled =
      ⟨.text [], sp.tokens.reverse ++ tokens⟩ := by
  induction sp generalizing tokens with
  | last ps => exact settled_foldl_feed_bytes ps tokens
  | aside ps raw unseen after ih =>
    rw [Spelled.written, foldl_feed_bracket (settled_foldl_feed_bytes ps tokens) rfl,
      List.foldl_append, foldl_feed_aside unseen, ih hwf, Spelled.tokens]
    simp
  | empty ps tag after ih =>
    simp only [Spelled.isWellFormed, Bool.and_eq_true] at hwf
    rw [Spelled.written, foldl_feed_bracket (settled_foldl_feed_bytes ps tokens) rfl,
      List.foldl_append, foldl_feed_opensAndCloses hwf.1, ih hwf.2, Spelled.tokens]
    simp
  | element ps tag inside after ihInside ihAfter =>
    simp only [Spelled.isWellFormed, Bool.and_eq_true] at hwf
    obtain ⟨⟨htag, hinside⟩, hafter⟩ := hwf
    rw [Spelled.written, foldl_feed_bracket (settled_foldl_feed_bytes ps tokens) rfl,
      List.foldl_append, foldl_feed_opens htag, foldl_feed_bracket (ihInside hinside _) rfl,
      List.foldl_append, foldl_feed_closes htag, ihAfter hafter, Spelled.tokens]
    simp

end Lexing

namespace Progress

/-- A reader inside an element of which a content has been read so far. -/
def within
    (scopes : List Scope)
    (tag : Tag)
    (c : Content)
    (outer : List Element)
    (root : Option Element) : Progress :=
  ⟨scopes, ⟨⟨tag, c.placed (Event.inForce scopes)⟩ :: outer, root⟩⟩

section Within

variable
  {inner : Tag}
  (hwf : inner.isWellFormed = true)
  (scopes : List Scope)
  (tag : Tag)
  (c : Content)
  (outer : List Element)
  (root : Option Element)

theorem foldlM_take_bytes
    (ps : List Piece) :
    (Piece.tokens [] ps).foldlM take (within scopes tag c outer root) =
      .ok (within scopes tag (c.addText (Piece.said ps)) outer root) := by
  rw [within, foldlM_take_pieces, within, Content.placed_addText]
  rfl

include hwf

theorem take_opensAndCloses :
    take (within scopes tag c outer root) (.opening (inner.written ++ [0x2F])) =
      .ok (within scopes tag (c.addElement { tag := inner }) outer root) := by
  rw [within, take_opening_slash hwf, within, Content.placed_addElement]
  rfl

theorem take_opens :
    take (within scopes tag c outer root) (.opening inner.written) =
      let bindings := inner.declared (Event.inForce scopes)
      .ok (within (⟨Utf8.encode inner.name, bindings⟩ :: scopes) (inner.placed bindings) .nothing
        (⟨tag, c.placed (Event.inForce scopes)⟩ :: outer) root) :=
  take_opening hwf scopes _

theorem take_closes
    (inside : Content) :
    let bindings := inner.declared (Event.inForce scopes)
    take
        (within (⟨Utf8.encode inner.name, bindings⟩ :: scopes) (inner.placed bindings) inside
          (⟨tag, c.placed (Event.inForce scopes)⟩ :: outer) root)
        (.closing (Utf8.encode inner.name)) =
      .ok (within scopes tag (c.addElement ⟨inner, inside⟩) outer root) := by
  intro bindings
  rw [within, take_closing hwf, within, Content.placed_addElement]
  rfl

end Within

/-- What is spelled is added, node by node, to the element that it stands in. -/
theorem foldlM_take_spelled
    {sp : Spelled}
    (hwf : sp.isWellFormed = true)
    (scopes : List Scope)
    (tag : Tag)
    (c : Content)
    (outer : List Element)
    (root : Option Element) :
    sp.tokens.foldlM take (within scopes tag c outer root) =
      .ok (within scopes tag (sp.addTo c) outer root) := by
  induction sp generalizing scopes tag c outer with
  | last ps => exact foldlM_take_bytes scopes tag c outer root ps
  | aside ps raw unseen after ih =>
    have haside : ∀ p : Progress, p.take .aside = .ok p := fun _ => rfl
    rw [Spelled.tokens, foldlM_take_append (foldlM_take_bytes scopes tag c outer root ps),
      foldlM_take_cons (haside _), ih hwf, Spelled.addTo]
  | empty ps inner after ih =>
    simp only [Spelled.isWellFormed, Bool.and_eq_true] at hwf
    rw [Spelled.tokens, foldlM_take_append (foldlM_take_bytes scopes tag c outer root ps),
      foldlM_take_cons (take_opensAndCloses hwf.1 ..), ih hwf.2, Spelled.addTo]
  | element ps inner inside after ihInside ihAfter =>
    simp only [Spelled.isWellFormed, Bool.and_eq_true] at hwf
    obtain ⟨⟨hinner, hinside⟩, hafter⟩ := hwf
    rw [Spelled.tokens, foldlM_take_append (foldlM_take_bytes scopes tag c outer root ps),
      foldlM_take_cons (take_opens hinner ..), foldlM_take_append (ihInside hinside ..),
      foldlM_take_cons (take_closes hinner ..), ihAfter hafter, Spelled.addTo]

end Progress

namespace Spelled

/-- A document with an element around what is spelled. -/
def document
    (tag : Tag)
    (inside : Spelled) : Bytes :=
  tag.opens ++ (inside.written ++ tag.closes)

end Spelled

/-- However it is spelled, a document is read as the element that it means. -/
theorem parse_spelled
    {tag : Tag}
    {inside : Spelled}
    (htag : tag.isWellFormed = true)
    (hinside : inside.isWellFormed = true) :
    parse (Spelled.document tag inside) = .ok (Element.placed ⟨tag, inside.meaning⟩) := by
  have htokens :
      ((Spelled.document tag inside).foldl Lexing.feed {}).finish =
        ⟨.opening tag.written :: (inside.tokens ++ [.closing (Utf8.encode tag.name)]), none⟩ := by
    rw [Spelled.document, List.foldl_append, Lexing.foldl_feed_opens htag,
      Lexing.foldl_feed_bracket (Lexing.settled_foldl_feed_spelled hinside _) rfl,
      Lexing.foldl_feed_closes htag]
    simp [Lexing.finish, Mode.flushText]
  let bindings := tag.declared Binding.builtin
  let reader := Progress.within [⟨Utf8.encode tag.name, bindings⟩] (tag.placed bindings)
  have hopened : Progress.take {} (.opening tag.written) = .ok (reader .nothing [] none) :=
    Progress.take_opening htag [] {}
  have hread : inside.tokens.foldlM Progress.take (reader .nothing [] none) =
      .ok (reader inside.meaning [] none) :=
    Progress.foldlM_take_spelled hinside ..
  have hclosed : (reader inside.meaning [] none).take (.closing (Utf8.encode tag.name)) =
      .ok ⟨[], ⟨[], some (Element.placed ⟨tag, inside.meaning⟩)⟩⟩ :=
    Progress.take_closing htag ..
  rw [parse_eq_tree, Lexing.tree, htokens, Progress.foldlM_take_cons hopened,
    Progress.foldlM_take_append hread, Progress.foldlM_take_cons hclosed]
  rfl

end Xml
end PimDav
