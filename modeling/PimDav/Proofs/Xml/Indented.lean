import PimDav.Proofs.Xml.Kept
import PimDav.Proofs.Xml.RoundTrip

/-!
# Indented documents read back

What is written between the tags of an indented document is text to its reader, and joins the
texts that were written there.  The element that is read holds these longer texts, and still
everything that was kept of the original when it was written.
-/

namespace PimDav
namespace Xml

namespace Content

/-- The indentation as a text. -/
def margin (depth : Nat) : String :=
  String.ofList (indentation depth)

@[simp] theorem toList_margin
    (depth : Nat) :
    (margin depth).toList = indentation depth := by
  rw [margin, String.toList_ofList]

theorem isBlank_of_mem_margin
    {depth : Nat}
    {c : Char}
    (hc : c ∈ (margin depth).toList) :
    Text.isBlank c = true := by
  rw [toList_margin, indentation] at hc
  rw [List.eq_of_mem_replicate hc]
  decide

@[simp] theorem escapeChars_indentation
    (depth : Nat) :
    escapeChars (indentation depth) = indentation depth := by
  have hall : ∀ n, escapeChars (List.replicate n ' ') = List.replicate n ' ' := by
    intro n
    induction n with
    | zero => rfl
    | succ n ih =>
      rw [List.replicate_succ, escapeChars_cons, ih]
      rfl
  exact hall _

/-- The content that is read when the lines of a content inside an element at a depth stand
between a text and the indentation before the closing tag. -/
def spread (depth : Nat) (lead : String) : Content → Content
  | nothing => text (lead ++ margin depth) nothing
  | text v after =>
    let shown := Text.trim v
    if shown.isEmpty then spread depth lead after
    else spread depth (lead ++ margin (depth + 1) ++ shown ++ "\n") after
  | element tag inside after =>
    text (lead ++ margin (depth + 1))
      (element tag (inside.orLines (spread (depth + 1) "\n" inside)) (spread depth "\n" after))

/-- The content of an element at a depth as it is read from its indented form. -/
def laidOut (depth : Nat) (c : Content) : Content :=
  c.orLines (c.spread depth "\n")

theorem write_of_isText
    {c : Content}
    (hc : c.isText = true)
    (rest : List Char) :
    c.write rest = escapeChars c.characters ++ rest := by
  induction c with
  | nothing => rfl
  | text v after ih =>
    rw [write, ih hc, characters, escapeChars_append, List.append_assoc]
  | element tag inside after => cases hc

theorem isNothing_of_isBlank_eq_false
    {c : Content}
    (hc : c.isBlank = false) :
    c.isNothing = false := by
  cases c with
  | nothing => cases hc
  | text v after => rfl
  | element tag inside after => rfl

theorem isNothing_spread
    (depth : Nat)
    (lead : String)
    (c : Content) :
    (c.spread depth lead).isNothing = false := by
  induction c generalizing lead with
  | nothing => rfl
  | text v after ih =>
    rw [spread]
    cases (Text.trim v).isEmpty with
    | true => exact ih _
    | false => exact ih _
  | element tag inside after => rfl

/-- The indented form of an element is the compact form of what is read from it. -/
theorem writeLines_element
    {depth : Nat}
    {inside : Content}
    (hlines : ∀ rest, '\n' :: inside.writeLines (depth + 1) (indentation depth ++ rest) =
      (inside.spread depth "\n").write rest)
    (tag : Tag)
    (after : Content)
    (rest : List Char) :
    (element tag inside after).writeLines depth rest =
      indentation depth ++
        (element tag (inside.laidOut depth) nothing).write
          ('\n' :: after.writeLines depth rest) := by
  rw [writeLines, laidOut]
  congr 1
  apply orLines_cases (P := fun laid =>
    tag.writeOpening _ = (element tag laid nothing).write ('\n' :: after.writeLines depth rest))
  · intro hblank
    rw [if_pos hblank]
    rfl
  · intro hblank htext
    rw [hblank, if_neg Bool.false_ne_true, if_pos htext, write,
      isNothing_of_isBlank_eq_false hblank, if_neg Bool.false_ne_true, write_of_isText htext, write]
  · intro hblank htext
    rw [hblank, htext, if_neg Bool.false_ne_true, if_neg Bool.false_ne_true, hlines, write,
      isNothing_spread, if_neg Bool.false_ne_true, write]

/-- The lines of a content, with a text before them and an indentation after them, are the compact
form of what is read from them. -/
theorem escapeChars_append_writeLines
    (depth : Nat)
    (lead : String)
    (c : Content)
    (rest : List Char) :
    escapeChars lead.toList ++ c.writeLines (depth + 1) (indentation depth ++ rest) =
      (c.spread depth lead).write rest := by
  induction c generalizing depth lead rest with
  | nothing => simp [writeLines, spread, write, escapeChars_append]
  | text v after ih =>
    rw [writeLines, spread]
    cases hshown : (Text.trim v).isEmpty with
    | true => exact ih depth lead rest
    | false =>
      have hbreak : escapeChars ['\n'] = ['\n'] := rfl
      simp only [Bool.false_eq_true, if_false, ← ih, String.toList_append, escapeChars_append,
        toList_margin, escapeChars_indentation]
      simp [hbreak]
  | element tag inside after ihInside ihAfter =>
    have hbreak : ∀ cs, '\n' :: cs = escapeChars "\n".toList ++ cs := fun _ => rfl
    have hsplit : ∀ (inside after : Content) (rest : List Char),
        (element tag inside after).write rest =
          (element tag inside nothing).write (after.write rest) := fun _ _ _ => rfl
    rw [writeLines_element (fun rest => ihInside (depth + 1) "\n" rest), hbreak, ihAfter,
      ← hsplit, spread, write, String.toList_append, escapeChars_append, toList_margin,
      escapeChars_indentation, List.append_assoc]
    rfl

theorem isJoined_orLines
    {c lines : Content}
    (hc : c.isJoined = true)
    (hlines : lines.isJoined = true) :
    (c.orLines lines).isJoined = true := by
  apply orLines_cases (P := fun laid => laid.isJoined = true)
  · exact fun _ => rfl
  · exact fun _ _ => hc
  · exact fun _ _ => hlines

theorem isJoined_spread
    (depth : Nat)
    {lead : String}
    {c : Content}
    (hlead : lead ≠ "")
    (hjoined : c.isJoined = true) :
    (c.spread depth lead).isJoined = true := by
  induction c generalizing depth lead with
  | nothing => simp [spread, isJoined, beginsWithText, hlead]
  | text v after ih =>
    simp only [isJoined, Bool.and_eq_true] at hjoined
    rw [spread]
    cases (Text.trim v).isEmpty with
    | true => exact ih depth hlead hjoined.2
    | false => exact ih depth (by simp) hjoined.2
  | element tag inside after ihInside ihAfter =>
    simp only [isJoined, Bool.and_eq_true] at hjoined
    have hbreak : "\n" ≠ "" := by decide
    have hinside := isJoined_orLines hjoined.1 (ihInside (depth + 1) hbreak hjoined.1)
    have hafter := ihAfter depth hbreak hjoined.2
    simp [spread, isJoined, beginsWithText, hlead, hinside, hafter]

theorem isWellFormed_orLines
    {c lines : Content}
    (hc : c.isWellFormed = true)
    (hlines : lines.isWellFormed = true) :
    (c.orLines lines).isWellFormed = true := by
  apply orLines_cases (P := fun laid => laid.isWellFormed = true)
  · exact fun _ => rfl
  · exact fun _ _ => hc
  · exact fun _ _ => hlines

theorem isWellFormed_spread
    (depth : Nat)
    (lead : String)
    {c : Content}
    (hwf : c.isWellFormed = true) :
    (c.spread depth lead).isWellFormed = true := by
  induction c generalizing depth lead with
  | nothing => rfl
  | text v after ih =>
    rw [spread]
    cases (Text.trim v).isEmpty with
    | true => exact ih depth _ hwf
    | false => exact ih depth _ hwf
  | element tag inside after ihInside ihAfter =>
    simp only [isWellFormed, Bool.and_eq_true] at hwf
    obtain ⟨⟨htag, hinside⟩, hafter⟩ := hwf
    have hlaid := isWellFormed_orLines hinside (ihInside (depth + 1) "\n" hinside)
    simp [spread, isWellFormed, htag, hlaid, ihAfter depth "\n" hafter]

/-- The surrounding blanks of a text are not kept. -/
theorem keptLines_text_congr
    {v w : String}
    {c d : Content}
    (htrim : Text.trim v = Text.trim w)
    (hlines : c.keptLines = d.keptLines) :
    (text v c).keptLines = (text w d).keptLines := by
  rw [keptLines, keptLines, htrim, hlines]

theorem keptLines_text_of_blank
    {v : String}
    (hv : ∀ a ∈ v.toList, Text.isBlank a = true)
    (c : Content) :
    (text v c).keptLines = c.keptLines := by
  rw [keptLines, Text.trim_eq_empty hv]
  rfl

theorem kept_orLines
    {c lines : Content}
    (hlines : lines.keptLines = c.keptLines) :
    (c.orLines lines).kept = c.kept := by
  have hblankLines : lines.isBlank = c.isBlank := by
    rw [← isBlank_keptLines, hlines, isBlank_keptLines]
  have htextLines : lines.isText = c.isText := by
    rw [← isText_keptLines, hlines, isText_keptLines]
  apply orLines_cases (P := fun laid => laid.kept = c.kept)
  · intro hblank
    rw [kept, kept, orLines, orLines, hblank]
    rfl
  · exact fun _ _ => rfl
  · intro hblank htext
    rw [kept, kept, orLines, orLines, hblankLines, htextLines, hblank, htext, hlines]
    rfl

theorem trim_append_margin
    (s : String)
    (depth : Nat) :
    Text.trim (s ++ margin depth) = Text.trim s := by
  have hbetween : Text.trim ("" ++ s ++ margin depth) = Text.trim s :=
    Text.trim_between (by simp) (fun _ ha => isBlank_of_mem_margin ha) s
  rwa [String.empty_append] at hbetween

theorem isBlank_of_mem_lineBreak :
    ∀ a ∈ "\n".toList, Text.isBlank a = true := by
  intro a ha
  obtain rfl : a = '\n' := List.mem_singleton.1 ha
  rfl

/-- Lines after a line break are kept like the content. -/
theorem keptLines_of_lineBreak
    {lines c : Content}
    (hlines : lines.keptLines = (text "\n" c).keptLines) :
    lines.keptLines = c.keptLines := by
  rw [hlines, keptLines_text_of_blank isBlank_of_mem_lineBreak]

/-- The text before the lines is kept like a first text of the content, and the indentation not at
all. -/
theorem keptLines_spread
    (depth : Nat)
    {lead : String}
    {c : Content}
    (hjoined : c.isJoined = true)
    (hmeet : c.beginsWithText = false ∨ ∀ a ∈ lead.toList, Text.isBlank a = true) :
    (c.spread depth lead).keptLines = (text lead c).keptLines := by
  induction c generalizing depth lead with
  | nothing => exact keptLines_text_congr (trim_append_margin lead depth) rfl
  | text v after ih =>
    have hlead : ∀ a ∈ lead.toList, Text.isBlank a = true :=
      hmeet.resolve_left (by simp [beginsWithText])
    simp only [isJoined, Bool.and_eq_true, Bool.not_eq_true'] at hjoined
    obtain ⟨⟨-, hbegin⟩, hafter⟩ := hjoined
    rw [keptLines_text_of_blank hlead]
    cases hshown : (Text.trim v).isEmpty with
    | true =>
      have hspread : (text v after).spread depth lead = after.spread depth lead := by
        simp [spread, hshown]
      have hkept : (text v after).keptLines = after.keptLines := by
        simp [keptLines, hshown]
      rw [hspread, hkept, ih depth hafter (Or.inr hlead), keptLines_text_of_blank hlead]
    | false =>
      have hspread : (text v after).spread depth lead =
          after.spread depth (lead ++ margin (depth + 1) ++ Text.trim v ++ "\n") := by
        simp [spread, hshown]
      have hbefore : ∀ a ∈ (lead ++ margin (depth + 1)).toList, Text.isBlank a = true := by
        rw [String.toList_append]
        exact List.forall_mem_append.2 ⟨hlead, fun _ ha => isBlank_of_mem_margin ha⟩
      have htrim : Text.trim (lead ++ margin (depth + 1) ++ Text.trim v ++ "\n") = Text.trim v := by
        rw [Text.trim_between hbefore isBlank_of_mem_lineBreak, Text.trim_trim]
      rw [hspread, ih depth hafter (Or.inl hbegin)]
      exact keptLines_text_congr htrim rfl
  | element tag inside after ihInside ihAfter =>
    simp only [isJoined, Bool.and_eq_true] at hjoined
    have hinside : (inside.spread (depth + 1) "\n").keptLines = inside.keptLines :=
      keptLines_of_lineBreak (ihInside (depth + 1) hjoined.1 (Or.inr isBlank_of_mem_lineBreak))
    have hafter : (after.spread depth "\n").keptLines = after.keptLines :=
      keptLines_of_lineBreak (ihAfter depth hjoined.2 (Or.inr isBlank_of_mem_lineBreak))
    apply keptLines_text_congr (trim_append_margin lead (depth + 1))
    rw [keptLines, hafter, keptLines]
    exact congrArg (element tag · after.keptLines) (kept_orLines hinside)

end Content

namespace Element

/-- The element between two line breaks. -/
def betweenBreaks (e : Element) : Content :=
  .text "\n" (.element e.tag e.content (.text "\n" .nothing))

variable {e : Element}

theorem isJoined_betweenBreaks
    (hjoined : e.content.isJoined = true) :
    e.betweenBreaks.isJoined = true := by
  simp [betweenBreaks, Content.isJoined, Content.beginsWithText, hjoined]

theorem isWellFormed_betweenBreaks
    (hwf : e.isWellFormed = true) :
    e.betweenBreaks.isWellFormed = true := by
  rw [isWellFormed, Bool.and_eq_true] at hwf
  simp [betweenBreaks, Content.isWellFormed, hwf]

/-- The element that is read from the indented form. -/
def laidOut (e : Element) : Element :=
  ⟨e.tag, e.content.laidOut 0⟩

/-- The indented form is a declaration and the compact form of what is read from it, between line
breaks. -/
theorem encode_indented
    (e : Element) :
    Utf8.encode e.indented =
      Utf8.encode declaration ++ Utf8.encodeChars (e.laidOut.betweenBreaks.write []) := by
  have hlines : ∀ rest,
      '\n' :: e.content.writeLines 1 (Content.indentation 0 ++ rest) =
        (e.content.spread 0 "\n").write rest :=
    Content.escapeChars_append_writeLines 0 "\n" e.content
  have hwhole : "\n" ++ String.ofList (e.alone.writeLines 0 []) =
      String.ofList (e.laidOut.betweenBreaks.write []) := by
    rw [alone, Content.writeLines_element hlines, ← String.toList_inj]
    simp
    rfl
  rw [indented, String.append_assoc, hwhole, Utf8.encode_append, Utf8.encode_ofList]

theorem isJoined_laidOut
    (hjoined : e.content.isJoined = true) :
    e.laidOut.content.isJoined = true :=
  Content.isJoined_orLines hjoined (Content.isJoined_spread 0 (by decide) hjoined)

theorem isWellFormed_laidOut
    (hwf : e.isWellFormed = true) :
    e.laidOut.isWellFormed = true := by
  simp only [isWellFormed, Bool.and_eq_true] at hwf ⊢
  exact ⟨hwf.1, Content.isWellFormed_orLines hwf.2 (Content.isWellFormed_spread 0 "\n" hwf.2)⟩

/-- What is read is more than what was written, but no more of it is kept. -/
theorem kept_laidOut
    (hjoined : e.content.isJoined = true) :
    e.laidOut.kept = e.kept := by
  have hlines : (e.content.spread 0 "\n").keptLines = e.content.keptLines :=
    Content.keptLines_of_lineBreak
      (Content.keptLines_spread 0 hjoined (Or.inr Content.isBlank_of_mem_lineBreak))
  exact congrArg (Element.mk e.tag) (Content.kept_orLines hlines)

end Element

namespace Progress

/-- Texts outside the root are dropped. -/
theorem foldlM_take_betweenBreaks
    {e : Element}
    (hjoined : e.content.isJoined = true)
    (hwf : e.isWellFormed = true) :
    (.aside :: e.betweenBreaks.tokens).foldlM take {} = .ok ⟨[], ⟨[], some e.placed⟩⟩ := by
  have haside : take {} .aside = .ok {} := rfl
  have hbreak : escapedTokens [] "\n".toList = [.text [0x0A]] := by decide +kernel
  have htext : ∀ root, take ⟨[], ⟨[], root⟩⟩ (.text [0x0A]) = .ok ⟨[], ⟨[], root⟩⟩ := fun _ => rfl
  rw [foldlM_take_cons haside, Element.betweenBreaks, Content.tokens, hbreak, tokens_element,
    List.singleton_append, foldlM_take_cons (htext none),
    foldlM_take_append (foldlM_take_root hjoined hwf), Content.tokens, hbreak, Content.tokens,
    List.singleton_append, foldlM_take_cons (htext _)]
  rfl

end Progress

/-- An indented document is read as the element with the lines as texts in it. -/
theorem parse_indented
    {e : Element}
    (hjoined : e.content.isJoined = true)
    (hwf : e.isWellFormed = true) :
    parse (Utf8.encode e.indented) = .ok e.laidOut.placed := by
  have hjoinedLaid := e.isJoined_laidOut hjoined
  have hwfLaid := e.isWellFormed_laidOut hwf
  have hlexed := Lexing.settled_foldl_feed_write (Element.isJoined_betweenBreaks hjoinedLaid)
    (Element.isWellFormed_betweenBreaks hwfLaid) [.aside]
  have hfinish : ∀ tokens : List Token,
      Lexing.finish ⟨.text [], tokens.reverse ++ [.aside]⟩ = ⟨.aside :: tokens, none⟩ := by
    simp [Lexing.finish, Mode.flushText]
  rw [Element.encode_indented, parse_eq, Token.trail_declaration, ← Lexing.finish_settled, hlexed,
    hfinish, Progress.foldlM_take_betweenBreaks hjoinedLaid hwfLaid]
  rfl

/-- An indented document is read as an element with the same texts up to blank ones and to
surrounding blanks.  A text that is all there is in its element is the same, surrounding blanks
included, unless it is blank.  What is read has the same indented form. -/
theorem parse_indented_tidied
    (e : Element)
    (hbuilt : Built e)
    (hwf : e.isWellFormed = true) :
    ∃ read, parse (Utf8.encode e.indented) = .ok read ∧
      read.tidied.withoutSpaces = e.tidied ∧
      List.Forall₂ Element.KeepsText (e :: e.deepElements) (read :: read.deepElements) ∧
      read.indented = e.indented := by
  have hkept : e.laidOut.placed.kept.withoutSpaces = e.kept := by
    rw [← Element.kept_withoutSpaces, Element.withoutSpaces_placed, Element.kept_withoutSpaces,
      e.kept_laidOut hbuilt.isJoined, ← Element.kept_withoutSpaces, hbuilt.withoutSpaces]
  exact ⟨e.laidOut.placed, parse_indented hbuilt.isJoined hwf, Element.of_kept_eq hkept⟩

/-- Texts of all kinds beside elements and alone, at several depths. -/
theorem parse_indented_tidied_mixed :
    let e := Element.new "d:note"
      |>.attr "xmlns:d" "DAV:"
      |>.text "\t<one> \r\n two\u00a0"
      |>.child ((Element.new "d:alone").text " \n three ")
      |>.text " \n "
      |>.child (Element.new "d:inner" |>.text "four" |>.child ((Element.new "d:blank").text "\t"))
      |>.text "five"
    Built e ∧ e.isWellFormed = true ∧
      ∃ read, parse (Utf8.encode e.indented) = .ok read ∧
        read.tidied.withoutSpaces = e.tidied ∧
        List.Forall₂ Element.KeepsText (e :: e.deepElements) (read :: read.deepElements) ∧
        read.indented = e.indented := by
  intro e
  have hblank : Built ((Element.new "d:blank").text "\t") := (Built.new _).text _
  have hinner := ((Built.new "d:inner").text "four").child hblank
  have halone : Built ((Element.new "d:alone").text " \n three ") := (Built.new _).text _
  have hbuilt : Built e :=
    ((((((Built.new _).attr _ _).text _).child halone).text _).child hinner).text _
  have hwf : e.isWellFormed = true := by decide +kernel
  exact ⟨hbuilt, hwf, parse_indented_tidied e hbuilt hwf⟩

end Xml
end PimDav
