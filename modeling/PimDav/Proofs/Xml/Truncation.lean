import PimDav.Proofs.Xml.Nesting
import PimDav.Proofs.Xml.RoundTrip

/-!
# Documents that end too early

A written document has its root only with its last byte, the bracket of the tag that
closes the root.  A document that was cut off before ends inside markup, inside
an element or before any element, and it is refused wherever the cut was made.
-/

namespace PimDav
namespace Xml

namespace Mode

theorem stepDoctype_ne_nil
    {place : Doctype}
    {b : UInt8}
    (hbetween : (stepDoctype place b).1 = .text []) :
    (stepDoctype place b).2 ≠ [] := by
  have houter : (stepDoctype.outer b).1 = .text [] → (stepDoctype.outer b).2 ≠ [] := by
    unfold stepDoctype.outer
    grind
  cases place with
  | keyword missing => cases missing <;> grind [stepDoctype]
  | _ => grind [stepDoctype]

/-- Only a completed token leads back to where no token has begun. -/
theorem step_ne_nil
    {m : Mode}
    {b : UInt8}
    (hbetween : (m.step b).1 = .text []) :
    (m.step b).2 ≠ [] := by
  cases m with
  | opened => grind [step, stepOpened]
  | cdataKeyword missing => cases missing <;> grind [step]
  | cdata seen =>
    unfold step at hbetween ⊢
    grind
  | doctype place => exact stepDoctype_ne_nil hbetween
  | _ => grind [step]

end Mode

namespace Lexing

/-- The tokens that were read stay. -/
theorem tokens_foldl_feed
    (l : Lexing)
    (bytes : Bytes) :
    ∃ more, (bytes.foldl feed l).tokens = more ++ l.tokens := by
  induction bytes generalizing l with
  | nil => exact ⟨[], rfl⟩
  | cons b bytes ih =>
    obtain ⟨more, hmore⟩ := ih (l.feed b)
    refine ⟨more ++ (l.mode.step b).2.reverse, ?_⟩
    rw [List.foldl_cons, hmore, feed, List.append_assoc]

/-- Where no token has begun, the last byte completed one. -/
theorem tokens_foldl_feed_between
    {l : Lexing}
    {bytes : Bytes}
    (hbytes : bytes ≠ [])
    (hbetween : (bytes.foldl feed l).mode = .text []) :
    ∃ t more, (bytes.foldl feed l).tokens = t :: more ++ l.tokens := by
  rw [← List.dropLast_concat_getLast hbytes, List.foldl_append] at hbetween ⊢
  obtain ⟨earlier, hearlier⟩ := tokens_foldl_feed l bytes.dropLast
  generalize bytes.dropLast.foldl feed l = before at hbetween hearlier ⊢
  have hstep := Mode.step_ne_nil hbetween
  cases hnew : (before.mode.step (bytes.getLast hbytes)).2.reverse with
  | nil => exact absurd (List.reverse_eq_nil_iff.1 hnew) hstep
  | cons t new =>
    refine ⟨t, new ++ earlier, ?_⟩
    rw [List.foldl_cons, List.foldl_nil, feed, hnew, hearlier]
    simp

/-- Where the last token is a tag, nothing is pending. -/
theorem eq_of_finish
    {l : Lexing}
    {tokens : List Token}
    {t : Token}
    (htag : t.isTag = true)
    (hfinish : l.finish = ⟨tokens ++ [t], none⟩) :
    l = ⟨.text [], t :: tokens.reverse⟩ := by
  obtain ⟨mode, read⟩ := l
  cases mode with
  | text seen =>
    have hread : Mode.flushText seen ++ read = t :: tokens.reverse := by
      have hitems : (Mode.flushText seen ++ read).reverse = tokens ++ [t] :=
        congrArg Trail.items hfinish
      simpa using congrArg List.reverse hitems
    cases seen with
    | nil => exact congrArg (Lexing.mk _) hread
    | cons b seen =>
      obtain ⟨rfl, -⟩ := List.cons.inj hread
      cases htag
  | _ => cases congrArg Trail.fault hfinish

/-- If a document ends with a tag, that tag comes after the tokens of every part from its
beginning. -/
theorem tokens_of_finish
    {l : Lexing}
    {rest : Bytes}
    {tokens : List Token}
    {t : Token}
    (hrest : rest ≠ [])
    (htag : t.isTag = true)
    (hfinish : (rest.foldl feed l).finish = ⟨tokens ++ [t], none⟩) :
    ∃ more, tokens ++ [t] = l.tokens.reverse ++ more ∧ t ∈ more := by
  have hwhole := eq_of_finish htag hfinish
  obtain ⟨last, more, hmore⟩ := tokens_foldl_feed_between hrest (congrArg mode hwhole)
  rw [hwhole, List.cons_append, List.cons.injEq] at hmore
  obtain ⟨rfl, hmore⟩ := hmore
  refine ⟨more.reverse ++ [t], ?_, by simp⟩
  rw [← List.append_assoc, ← List.reverse_append, ← hmore, List.reverse_reverse]

/-- An end inside markup is a fault, and any other one completes the text. -/
theorem finish_cases
    (l : Lexing) :
    l.finish = ⟨l.tokens.reverse, some .brokenMarkup⟩ ∨
      ∃ seen, l.finish = ⟨l.tokens.reverse ++ Mode.flushText seen, none⟩ := by
  obtain ⟨mode, tokens⟩ := l
  cases mode with
  | text seen => exact Or.inr ⟨seen, by simp [finish, reverse_flushText]⟩
  | _ => exact Or.inl rfl

end Lexing

namespace Event

/-- A tag leaves the mark of a tag. -/
theorem Steps.exists_isTag
    {scopes later : List Scope}
    {t : Token}
    {event : Event}
    {marks : List Mark}
    (hsteps : Steps scopes t event later)
    (htag : t.isTag = true)
    (hmarks : event.marks = .ok marks) :
    ∃ m ∈ marks, m.isTag = true := by
  cases hsteps with
  | text ht scopes s =>
    rw [ht] at htag
    cases htag
  | aside scopes => cases htag
  | empty scopes raw said space =>
    obtain ⟨tag, -, rfl⟩ := map_eq_ok hmarks
    exact ⟨.closes, by simp, rfl⟩
  | start scopes raw said space bindings =>
    obtain ⟨tag, -, rfl⟩ := map_eq_ok hmarks
    exact ⟨.opens tag, by simp, rfl⟩
  | finish scope scopes raw =>
    cases hmarks
    exact ⟨.closes, by simp, rfl⟩

end Event

namespace Builder

variable {b c : Builder}

/-- Once there is a root it stays, and an element that is opened after it stays open. -/
theorem root_take
    {m : Mark}
    (hroot : b.root.isSome = true)
    (htake : b.take m = .ok c) :
    c.root.isSome = true ∧ (c.stack = [] → b.stack = [] ∧ m.isTag = false) := by
  cases takes_of_take htake with
  | opens tag stack root => exact ⟨hroot, nofun⟩
  | closes e parent outer root => exact ⟨hroot, nofun⟩
  | closesRoot e => cases hroot
  | tells s e outer root => exact ⟨hroot, nofun⟩
  | tellsOutside s root => exact ⟨hroot, fun _ => ⟨rfl, rfl⟩⟩

theorem root_foldlM
    {marks : List Mark}
    (hroot : b.root.isSome = true)
    (hfold : marks.foldlM take b = .ok c) :
    c.root.isSome = true ∧ (c.stack = [] → b.stack = [] ∧ ∀ m ∈ marks, m.isTag = false) := by
  induction marks generalizing b with
  | nil =>
    cases hfold
    exact ⟨hroot, fun hstack => ⟨hstack, nofun⟩⟩
  | cons m marks ih =>
    obtain ⟨next, htake, hrest⟩ := foldlM_cons_eq_ok.1 hfold
    obtain ⟨hnext, hback⟩ := root_take hroot htake
    obtain ⟨hlast, hall⟩ := ih hnext hrest
    refine ⟨hlast, ?_⟩
    intro hstack
    obtain ⟨hempty, hmarks⟩ := hall hstack
    obtain ⟨hbefore, hm⟩ := hback hempty
    exact ⟨hbefore, List.forall_mem_cons.2 ⟨hm, hmarks⟩⟩

/-- An end without a root is refused. -/
theorem finish_of_root_eq_none
    (hroot : b.root = none) :
    b.finish = .error .unfinished ∨ b.finish = .error .noRoot := by
  cases hfinish : b.finish with
  | ok e =>
    rw [finish_eq_ok hfinish] at hroot
    cases hroot
  | error p => rcases error_of_finish hfinish with rfl | rfl <;> simp

end Builder

namespace Progress

variable {p q : Progress}

/-- After the root no tag comes to an end. -/
theorem root_foldlM
    {tokens : List Token}
    (hroot : p.builder.root.isSome = true)
    (hfold : tokens.foldlM take p = .ok q)
    (hstack : q.builder.stack = []) :
    ∀ t ∈ tokens, t.isTag = false := by
  have hall : q.builder.root.isSome = true ∧
      (q.builder.stack = [] → p.builder.stack = [] ∧ ∀ t ∈ tokens, t.isTag = false) := by
    induction tokens generalizing p with
    | nil =>
      cases hfold
      exact ⟨hroot, fun hstack => ⟨hstack, nofun⟩⟩
    | cons t tokens ih =>
      obtain ⟨next, htake, hrest⟩ := foldlM_cons_eq_ok.1 hfold
      obtain ⟨event, hevent, hstep⟩ := take_eq_ok htake
      obtain ⟨marks, hmarks, htaken⟩ := Builder.step_eq_ok hstep
      obtain ⟨hnext, hback⟩ := Builder.root_foldlM hroot htaken
      obtain ⟨hlast, hall⟩ := ih hnext hrest
      refine ⟨hlast, ?_⟩
      intro hstack
      obtain ⟨hempty, htokens⟩ := hall hstack
      obtain ⟨hbefore, hnone⟩ := hback hempty
      refine ⟨hbefore, List.forall_mem_cons.2 ⟨?_, htokens⟩⟩
      cases htag : t.isTag with
      | false => rfl
      | true =>
        obtain ⟨m, hm, htrue⟩ := hevent.exists_isTag htag hmarks
        rw [hnone m hm] at htrue
        cases htrue
  exact (hall.2 hstack).2

/-- A text that is pending makes no root. -/
theorem root_foldlM_flushText
    (seen : Bytes)
    (p : Progress) :
    ∃ q, (Mode.flushText seen).foldlM take p = .ok q ∧ q.builder.root = p.builder.root := by
  unfold Mode.flushText
  split
  · exact ⟨p, rfl, rfl⟩
  · obtain ⟨scopes, stack, root⟩ := p
    cases stack with
    | nil => exact ⟨_, rfl, rfl⟩
    | cons e outer => exact ⟨_, rfl, rfl⟩

end Progress

theorem withoutMark_of_head
    {bytes : Bytes}
    (hfirst : bytes.head? ≠ some 0xEF) :
    withoutMark bytes = bytes := by
  unfold withoutMark
  split
  · exact absurd rfl hfirst
  · rfl

/-- A document that is complete with the last byte of a tag is refused when it is cut
off before. -/
theorem parse_of_isPrefix
    {bytes cut : Bytes}
    {e : Element}
    {tokens : List Token}
    {t : Token}
    (hfirst : bytes.head? ≠ some 0xEF)
    (htrail : Token.trail bytes = ⟨tokens ++ [t], none⟩)
    (htag : t.isTag = true)
    (hparse : parse bytes = .ok e)
    (hcut : cut <+: bytes)
    (hproper : cut ≠ bytes) :
    parse cut = .error .brokenMarkup ∨ parse cut = .error .unfinished ∨
      parse cut = .error .noRoot := by
  obtain ⟨rest, rfl⟩ := hcut
  have hrest : rest ≠ [] := by
    rintro rfl
    exact hproper (List.append_nil cut).symm
  have hfirstCut : cut.head? ≠ some 0xEF := by
    cases cut with
    | nil => nofun
    | cons b cut => exact hfirst
  -- Before the last tag of the document there is no root.
  obtain ⟨p, hread, hroot⟩ :
      ∃ p, (cut.foldl Lexing.feed {}).tokens.reverse.foldlM Progress.take {} = .ok p ∧
        p.builder.root = none := by
    rw [parse_eq, htrail] at hparse
    rw [Token.trail, withoutMark_of_head hfirst, List.foldl_append] at htrail
    obtain ⟨more, hmore, ht⟩ := Lexing.tokens_of_finish hrest htag htrail
    cases hwhole : (tokens ++ [t]).foldlM Progress.take {} with
    | error f =>
      rw [hwhole] at hparse
      cases hparse
    | ok q =>
      rw [hwhole] at hparse
      have hfinish : q.builder = ⟨[], some e⟩ := Builder.finish_eq_ok hparse
      rw [hmore] at hwhole
      obtain ⟨p, hread, hlater⟩ := foldlM_append_eq_ok.1 hwhole
      refine ⟨p, hread, ?_⟩
      cases hroot : p.builder.root with
      | none => rfl
      | some r =>
        have hnone := Progress.root_foldlM (by rw [hroot]; rfl) hlater (by rw [hfinish]) t ht
        rw [htag] at hnone
        cases hnone
  rw [parse_eq, Token.trail, withoutMark_of_head hfirstCut]
  rcases (cut.foldl Lexing.feed {}).finish_cases with hfinish | ⟨seen, hfinish⟩
  · rw [hfinish, hread]
    exact Or.inl rfl
  · obtain ⟨q, hflush, hstill⟩ := Progress.root_foldlM_flushText seen p
    rw [hfinish, foldlM_append_eq_ok.2 ⟨p, hread, hflush⟩]
    exact Or.inr (Builder.finish_of_root_eq_none (hstill.trans hroot))

namespace Content

/-- The last token of an element is the tag that closes it. -/
theorem tokens_alone
    (e : Element) :
    ∃ before t, e.alone.tokens = before ++ [t] ∧ t.isTag = true := by
  rw [Element.alone, tokens]
  split
  · exact ⟨[], _, rfl, rfl⟩
  · exact ⟨.opening e.tag.written :: tokens e.content, _, rfl, rfl⟩

end Content

/-- A written document that was cut off is refused. -/
theorem parse_document_of_isPrefix
    {e : Element}
    {cut : Bytes}
    (hjoined : e.content.isJoined = true)
    (hwf : e.isWellFormed = true)
    (hcut : cut <+: Utf8.encode e.document)
    (hproper : cut ≠ Utf8.encode e.document) :
    parse cut = .error .brokenMarkup ∨ parse cut = .error .unfinished ∨
      parse cut = .error .noRoot := by
  obtain ⟨before, t, htokens, htag⟩ := Content.tokens_alone e
  have htrail := Token.trail_document hjoined hwf
  rw [htokens, ← List.cons_append] at htrail
  have hfirst : (Utf8.encode e.document).head? ≠ some 0xEF := by
    rw [Element.document, Utf8.encode_append]
    intro hmark
    cases hmark
  exact parse_of_isPrefix hfirst htrail htag (parse_document hjoined hwf) hcut hproper

end Xml
end PimDav
