import PimDav.Proofs.Xml.Lexing
import PimDav.Proofs.Xml.Search

/-!
# Written elements read back

What was written is read as the same tree: the same names, attributes, nodes
and texts, in the same order, for any text and any value.  The reader adds only
the namespace that each name has among the declarations around it.
-/

namespace PimDav
namespace Xml
namespace Content

/-- The content with every tag in the namespace that its name has, below the given
bindings. -/
def placed (inForce : List Binding) : Content → Content
  | nothing => nothing
  | text v after => text v (placed inForce after)
  | element tag inside after =>
    let bindings := tag.declared inForce
    element (tag.placed bindings) (placed bindings inside) (placed inForce after)

@[simp] theorem beginsWithText_placed
    (inForce : List Binding)
    (c : Content) :
    (c.placed inForce).beginsWithText = c.beginsWithText := by
  cases c <;> rfl

@[simp] theorem isJoined_placed
    (inForce : List Binding)
    (c : Content) :
    (c.placed inForce).isJoined = c.isJoined := by
  induction c generalizing inForce with
  | nothing => rfl
  | text v after ih => simp [placed, isJoined, ih]
  | element tag inside after ihInside ihAfter => simp [placed, isJoined, ihInside, ihAfter]

@[simp] theorem withoutSpaces_placed
    (inForce : List Binding)
    (c : Content) :
    (c.placed inForce).withoutSpaces = c.withoutSpaces := by
  induction c generalizing inForce with
  | nothing => rfl
  | text v after ih => simp [placed, withoutSpaces, ih]
  | element tag inside after ihInside ihAfter =>
    rw [placed, withoutSpaces, ihInside, ihAfter]
    rfl

end Content

namespace Element

/-- The element with every name in its namespace. -/
def placed (e : Element) : Element :=
  let bindings := e.tag.declared Binding.builtin
  ⟨e.tag.placed bindings, e.content.placed bindings⟩

theorem withoutSpaces_placed
    (e : Element) :
    e.placed.withoutSpaces = e.withoutSpaces := by
  rw [withoutSpaces, placed, Content.withoutSpaces_placed]
  rfl

end Element

/-- What is found in a built element that was written and read is what was put there, but
for the namespaces. -/
theorem Built.descendants_placed
    {e : Element}
    (hbuilt : Built e)
    (wanted : String) :
    (e.placed.descendants wanted).map Element.withoutSpaces = e.descendants wanted := by
  rw [← Element.descendants_withoutSpaces, Element.withoutSpaces_placed, hbuilt.withoutSpaces]

namespace Progress

/-- The tokens of an escaped text put the text into the open element. -/
theorem foldlM_take_escapedTokens
    (cs pending : List Char)
    (scopes : List Scope)
    (e : Element)
    (outer : List Element)
    (root : Option Element) :
    (escapedTokens pending cs).foldlM take ⟨scopes, ⟨e :: outer, root⟩⟩ =
      .ok ⟨scopes, ⟨e.text (String.ofList (pending ++ cs)) :: outer, root⟩⟩ := by
  rw [← tokens_escaped, foldlM_take_pieces, Piece.meaning_escaped]

variable {tag : Tag}

/-- What an opening tag makes of the reader: the namespace of its name is looked up
among its own declarations and those around it. -/
theorem step_opening
    (hwf : tag.isWellFormed = true)
    (scopes : List Scope) :
    let bindings := tag.declared (Event.inForce scopes)
    let space := Binding.resolve bindings (Utf8.encode tag.name)
    Event.step scopes (.opening (tag.written ++ [0x2F])) =
        .ok (scopes, .empty tag.raw space) ∧
      Event.step scopes (.opening tag.written) =
        .ok (⟨Utf8.encode tag.name, bindings⟩ :: scopes, .start tag.raw space) := by
  constructor
  · simp only [Event.step, Tag.opensAndCloses_written_slash, Tag.ofBytes_written hwf,
      Tag.declare_raw hwf]
    rfl
  · simp only [Event.step, Tag.opensAndCloses_written hwf, Tag.ofBytes_written hwf,
      Tag.declare_raw hwf]
    rfl

/-- A tag that closes at once is a whole element. -/
theorem take_opening_slash
    (hwf : tag.isWellFormed = true)
    (scopes : List Scope)
    (b : Builder) :
    take ⟨scopes, b⟩ (.opening (tag.written ++ [0x2F])) =
      (b.attach ⟨tag.placed (tag.declared (Event.inForce scopes)), .nothing⟩).map
        fun b => ⟨scopes, b⟩ := by
  rw [take, (step_opening hwf scopes).1]
  show (tag.raw.read _ >>= fun tag => b.attach { tag }) >>= _ = _
  rw [Tag.read_raw]
  rfl

theorem take_opening
    (hwf : tag.isWellFormed = true)
    (scopes : List Scope)
    (b : Builder) :
    take ⟨scopes, b⟩ (.opening tag.written) =
      let bindings := tag.declared (Event.inForce scopes)
      .ok ⟨⟨Utf8.encode tag.name, bindings⟩ :: scopes,
        { b with stack := { tag := tag.placed bindings } :: b.stack }⟩ := by
  rw [take, (step_opening hwf scopes).2]
  show (tag.raw.read _ >>= fun tag => .ok { b with stack := { tag } :: b.stack }) >>= _ = _
  rw [Tag.read_raw]
  rfl

/-- The closing tag of the innermost open element. -/
theorem take_closing
    (hwf : tag.isWellFormed = true)
    (bindings : List Binding)
    (scopes : List Scope)
    (e : Element)
    (outer : List Element)
    (root : Option Element) :
    take ⟨⟨Utf8.encode tag.name, bindings⟩ :: scopes, ⟨e :: outer, root⟩⟩
        (.closing (Utf8.encode tag.name)) =
      (Builder.attach ⟨outer, root⟩ e).map fun b => ⟨scopes, b⟩ := by
  have hstep :
      Event.step (⟨Utf8.encode tag.name, bindings⟩ :: scopes)
          (.closing (Utf8.encode tag.name)) = .ok (scopes, .finish) := by
    simp [Event.step, Tag.closingName_encode_name hwf]
  rw [take, hstep]
  rfl

/-- What is asked of the tokens of a content: inside any open element they add its
nodes to the element. -/
def Adds (c : Content) : Prop :=
  ∀ (scopes : List Scope) (e : Element) (outer : List Element) (root : Option Element),
    c.tokens.foldlM take ⟨scopes, ⟨e :: outer, root⟩⟩ =
      .ok ⟨scopes,
        ⟨{ e with content := e.content.addAll (c.placed (Event.inForce scopes)) } :: outer, root⟩⟩

/-- An element is read as soon as its content is. -/
theorem foldlM_take_alone
    {inside : Content}
    (hwf : tag.isWellFormed = true)
    (hjoined : inside.isJoined = true)
    (hinside : Adds inside)
    (scopes : List Scope)
    (b : Builder) :
    (Element.alone ⟨tag, inside⟩).tokens.foldlM take ⟨scopes, b⟩ =
      let bindings := tag.declared (Event.inForce scopes)
      (b.attach ⟨tag.placed bindings, inside.placed bindings⟩).map fun b => ⟨scopes, b⟩ := by
  have hlast :
      ∀ (t : Token) (p : Progress), [t].foldlM take p = p.take t := by
    intro t p
    rw [List.foldlM_cons]
    cases p.take t <;> rfl
  rw [Element.alone, Content.tokens]
  cases hnothing : inside.isNothing with
  | true =>
    rw [Content.eq_nothing_of_isNothing hnothing, if_pos rfl, Content.tokens, hlast,
      take_opening_slash hwf]
    rfl
  | false =>
    have hwhole :
        Content.nothing.addAll (inside.placed (tag.declared (Event.inForce scopes))) =
          inside.placed (tag.declared (Event.inForce scopes)) :=
      Content.nothing_addAll (by rw [Content.isJoined_placed, hjoined])
    rw [if_neg Bool.false_ne_true, foldlM_take_cons (take_opening hwf scopes b),
      foldlM_take_append (hinside _ _ _ _), Content.tokens, hlast, take_closing hwf]
    rw [Event.inForce, hwhole]

theorem tokens_element
    (tag : Tag)
    (inside after : Content) :
    (Content.element tag inside after).tokens =
      (Element.alone ⟨tag, inside⟩).tokens ++ after.tokens := by
  rw [Element.alone, Content.tokens, Content.tokens]
  cases inside.isNothing <;> simp [Content.tokens]

/-- Written content is added node by node to the element that it stands in. -/
theorem adds_of_isWellFormed
    {c : Content}
    (hjoined : c.isJoined = true)
    (hwf : c.isWellFormed = true) :
    Adds c := by
  induction c with
  | nothing =>
    intro scopes e outer root
    rfl
  | text v after ih =>
    intro scopes e outer root
    simp only [Content.isJoined, Bool.and_eq_true] at hjoined
    have htext := foldlM_take_escapedTokens v.toList [] scopes e outer root
    rw [List.nil_append, String.ofList_toList] at htext
    rw [Content.tokens, foldlM_take_append htext, ih hjoined.2 hwf]
    rfl
  | element tag inside after ihInside ihAfter =>
    intro scopes e outer root
    simp only [Content.isJoined, Bool.and_eq_true] at hjoined
    simp only [Content.isWellFormed, Bool.and_eq_true] at hwf
    obtain ⟨⟨htag, hinside⟩, hafter⟩ := hwf
    have halone :=
      foldlM_take_alone htag hjoined.1 (ihInside hjoined.1 hinside) scopes ⟨e :: outer, root⟩
    rw [tokens_element, foldlM_take_append halone, ihAfter hjoined.2 hafter]
    rfl

/-- The tokens of a whole element make it the root. -/
theorem foldlM_take_root
    {e : Element}
    (hjoined : e.content.isJoined = true)
    (hwf : e.isWellFormed = true) :
    e.alone.tokens.foldlM take {} = .ok ⟨[], ⟨[], some e.placed⟩⟩ := by
  simp only [Element.isWellFormed, Bool.and_eq_true] at hwf
  exact foldlM_take_alone hwf.1 hjoined (adds_of_isWellFormed hjoined hwf.2) [] {}

end Progress

/-- A written document is read as the element that was written, every name in its
namespace. -/
theorem parse_document
    {e : Element}
    (hjoined : e.content.isJoined = true)
    (hwf : e.isWellFormed = true) :
    parse (Utf8.encode e.document) = .ok e.placed := by
  have haside : Progress.take {} .aside = .ok {} := rfl
  rw [parse_eq, Token.trail_document hjoined hwf, Progress.foldlM_take_cons haside,
    Progress.foldlM_take_root hjoined hwf]
  rfl

/-- The declaration may be left out. -/
theorem parse_compact
    {e : Element}
    (hjoined : e.content.isJoined = true)
    (hwf : e.isWellFormed = true) :
    parse (Utf8.encode e.compact) = .ok e.placed := by
  rw [parse_eq, Token.trail_compact hjoined hwf, Progress.foldlM_take_root hjoined hwf]
  rfl

/-- Whatever was built from well-formed names is read back as it was, with and
without a declaration; only namespaces are new. -/
theorem parse_written_withoutSpaces
    (e : Element)
    (hbuilt : Built e)
    (hwf : e.isWellFormed = true) :
    (parse (Utf8.encode e.document)).map Element.withoutSpaces = .ok e ∧
      (parse (Utf8.encode e.compact)).map Element.withoutSpaces = .ok e := by
  have hforget : e.placed.withoutSpaces = e := by
    rw [Element.withoutSpaces_placed, hbuilt.withoutSpaces]
  constructor
  · rw [parse_document hbuilt.isJoined hwf, Except.map, hforget]
  · rw [parse_compact hbuilt.isJoined hwf, Except.map, hforget]

/-- Values and texts that look like markup, and blanks at every edge. -/
theorem parse_written_thorny :
    let e := Element.new "d:note"
      |>.attr "xmlns:d" "DAV:"
      |>.attr "title" " \"a\" 'b' <&lt;> \r\n"
      |>.text "\r\n]]> &amp; &#13; "
      |>.child ((Element.new "d:blank").text " ")
      |>.child (.new "d:empty")
      |>.text "\t"
    Built e ∧ e.isWellFormed = true ∧
      (parse (Utf8.encode e.document)).map Element.withoutSpaces = .ok e ∧
      (parse (Utf8.encode e.compact)).map Element.withoutSpaces = .ok e := by
  intro e
  have hblank : Built ((Element.new "d:blank").text " ") := (Built.new _).text _
  have hbuilt : Built e :=
    (((((Built.new _).attr _ _).attr _ _).text _).child hblank).child (.new _) |>.text _
  have hwf : e.isWellFormed = true := by decide +kernel
  exact ⟨hbuilt, hwf, parse_written_withoutSpaces e hbuilt hwf⟩

end Xml
end PimDav
