import PimDav.Proofs.Text.Ascii
import PimDav.Xml.Token

/-!
# Feeding bytes

Bytes that belong together are fed together: a run of characters goes into the text that is being
read, and a reference becomes a token.

A text is known to be over only at the bracket after it, so two readings are compared after the
text that is still pending has been completed.
-/

namespace PimDav
namespace Xml
namespace Lexing

/-- The reading with the text at its end completed. -/
def settled (l : Lexing) : Lexing :=
  match l.mode with
  | .text seen => ⟨.text [], Mode.flushText seen ++ l.tokens⟩
  | _ => l

theorem reverse_flushText
    (seen : Bytes) :
    (Mode.flushText seen).reverse = Mode.flushText seen := by
  unfold Mode.flushText
  split <;> rfl

/-- The bracket after a text completes it. -/
theorem feed_settled
    (l : Lexing) :
    l.settled.feed 0x3C = l.feed 0x3C := by
  obtain ⟨mode, tokens⟩ := l
  cases mode with
  | text seen =>
    have hnone : Mode.flushText [] = [] := rfl
    simp [settled, feed, Mode.step, reverse_flushText, hnone]
  | _ => rfl

/-- The end of the document completes a text as well. -/
theorem finish_settled
    (l : Lexing) :
    l.settled.finish = l.finish := by
  obtain ⟨mode, tokens⟩ := l
  cases mode with
  | text seen => simp [settled, finish, Mode.flushText]
  | _ => rfl

/-- Bytes that a mode only collects. -/
theorem foldl_feed_collect
    (collecting : Bytes → Mode)
    {bytes : Bytes}
    (hstep : ∀ b ∈ bytes, ∀ seen, (collecting seen).step b = (collecting (b :: seen), []))
    (seen : Bytes)
    (tokens : List Token) :
    bytes.foldl feed ⟨collecting seen, tokens⟩ =
      ⟨collecting (bytes.reverse ++ seen), tokens⟩ := by
  induction bytes generalizing seen with
  | nil => rfl
  | cons b bytes ih =>
    have hfeed : feed ⟨collecting seen, tokens⟩ b = ⟨collecting (b :: seen), tokens⟩ := by
      simp [feed, hstep b List.mem_cons_self seen]
    rw [List.foldl_cons, hfeed, ih fun x hx => hstep x (List.mem_cons_of_mem b hx)]
    simp

theorem feed_opened
    (seen : Bytes)
    (tokens : List Token) :
    feed ⟨.text seen, tokens⟩ 0x3C = ⟨.opened, Mode.flushText seen ++ tokens⟩ := by
  simp [feed, Mode.step, reverse_flushText]

theorem feed_openingEnd
    (seen : Bytes)
    (tokens : List Token) :
    feed ⟨.opening seen, tokens⟩ 0x3E = ⟨.text [], .opening seen.reverse :: tokens⟩ := by
  simp [feed, Mode.step]

/-- A run of characters of a text among which no markup begins. -/
theorem foldl_feed_run
    {cs : List Char}
    (hlt : '<' ∉ cs)
    (hamp : '&' ∉ cs)
    (seen : Bytes)
    (tokens : List Token) :
    (Utf8.encodeChars cs).foldl feed ⟨.text seen, tokens⟩ =
      ⟨.text ((Utf8.encodeChars cs).reverse ++ seen), tokens⟩ := by
  have hnoLt : (0x3C : UInt8) ∉ Utf8.encodeChars cs := Utf8.not_mem_encodeChars (by decide) hlt
  have hnoAmp : (0x26 : UInt8) ∉ Utf8.encodeChars cs := Utf8.not_mem_encodeChars (by decide) hamp
  apply foldl_feed_collect
  intro b hb seen
  have hbLt : b ≠ 0x3C := fun h => hnoLt (h ▸ hb)
  have hbAmp : b ≠ 0x26 := fun h => hnoAmp (h ▸ hb)
  simp [Mode.step, hbLt, hbAmp]

/-- A reference, from its ampersand to its semicolon. -/
theorem foldl_feed_reference
    {name : List Char}
    (hname : ∀ d ∈ name, d ≠ '&' ∧ d ≠ ';' ∧ d ≠ '<')
    (seen : Bytes)
    (tokens : List Token) :
    (Utf8.encodeChars ('&' :: name ++ [';'])).foldl feed ⟨.text seen, tokens⟩ =
      ⟨.text [], .reference (Utf8.encodeChars name) :: (Mode.flushText seen ++ tokens)⟩ := by
  have habsent :
      ∀ x : UInt8, x.toNat < 0x80 →
        Char.ofNat x.toNat = '&' ∨ Char.ofNat x.toNat = ';' ∨ Char.ofNat x.toNat = '<' →
        x ∉ Utf8.encodeChars name := by
    intro x hascii hx
    apply Utf8.not_mem_encodeChars hascii
    intro hmem
    obtain ⟨hamp, hsemicolon, hlt⟩ := hname _ hmem
    rcases hx with hx | hx | hx
    · exact hamp hx
    · exact hsemicolon hx
    · exact hlt hx
  have hcollect :
      (Utf8.encodeChars name).foldl feed
          ⟨.reference [], Mode.flushText seen ++ tokens⟩ =
        ⟨.reference ((Utf8.encodeChars name).reverse ++ []),
          Mode.flushText seen ++ tokens⟩ := by
    apply foldl_feed_collect Mode.reference
    intro b hb seen
    have hsemicolon : b ≠ 0x3B := fun h => habsent 0x3B (by decide) (by decide) (h ▸ hb)
    have hamp : b ≠ 0x26 := fun h => habsent 0x26 (by decide) (by decide) (h ▸ hb)
    have hlt : b ≠ 0x3C := fun h => habsent 0x3C (by decide) (by decide) (h ▸ hb)
    simp [Mode.step, hsemicolon, hamp, hlt]
  have hbegin :
      feed ⟨.text seen, tokens⟩ 0x26 = ⟨.reference [], Mode.flushText seen ++ tokens⟩ := by
    simp [feed, Mode.step, reverse_flushText]
  have hbytes :
      Utf8.encodeChars ('&' :: name ++ [';']) = 0x26 :: Utf8.encodeChars name ++ [0x3B] := by
    rw [List.cons_append, Utf8.encodeChars_cons, Utf8.encodeChars_append]
    rfl
  rw [hbytes, List.cons_append, List.foldl_cons, hbegin, List.foldl_append, hcollect]
  simp [feed, Mode.step]

end Lexing
end Xml
end PimDav
