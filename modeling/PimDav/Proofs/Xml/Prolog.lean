import PimDav.Proofs.Xml.Feeding
import PimDav.Proofs.Xml.Nesting
import PimDav.Xml.Writer

/-!
# What stands before the root

A declaration, comments, instructions, a doctype and stray text may stand before the root,
and the tree shows nothing of them.  So bytes that hold nothing else, and end where no
markup has begun, can be put in front of any document: what follows is read as if it
stood alone.  This is the case for every document, broken ones included, because the
reader never goes back to what it has read.

A byte order mark is dropped at the beginning of a document only.  Behind something else
it is stray text, and that comes to the same.
-/

namespace PimDav
namespace Xml

namespace Progress

/-- Where no element is open, only a tag changes anything. -/
theorem take_outside
    {t : Token}
    (htag : t.isTag = false) :
    take {} t = .ok {} := by
  cases t with
  | opening raw => cases htag
  | closing raw => cases htag
  | _ => rfl

theorem foldlM_take_outside
    {tokens : List Token}
    (htags : ∀ t ∈ tokens, t.isTag = false) :
    tokens.foldlM take {} = .ok {} := by
  induction tokens with
  | nil => rfl
  | cons t tokens ih =>
    rw [List.forall_mem_cons] at htags
    rw [foldlM_take_cons (take_outside htags.1), ih htags.2]

end Progress

namespace Lexing

/-- The tree of a document whose last byte has just been fed. -/
def tree (l : Lexing) : Except Problem Element :=
  l.finish.items.foldlM Progress.take {} >>= Progress.conclude l.finish.fault

/-- The reading when other tokens had been read before. -/
def behind
    (l : Lexing)
    (earlier : List Token) : Lexing :=
  ⟨l.mode, l.tokens ++ earlier⟩

/-- No byte is read with regard to earlier tokens. -/
theorem foldl_feed_behind
    (l : Lexing)
    (earlier : List Token)
    (bytes : Bytes) :
    bytes.foldl feed (l.behind earlier) = (bytes.foldl feed l).behind earlier := by
  induction bytes generalizing l with
  | nil => rfl
  | cons b bytes ih =>
    have hfeed : (l.behind earlier).feed b = (l.feed b).behind earlier := by
      simp [behind, feed]
    rw [List.foldl_cons, List.foldl_cons, hfeed, ih]

theorem finish_behind
    (l : Lexing)
    (earlier : List Token) :
    (l.behind earlier).finish = ⟨earlier.reverse ++ l.finish.items, l.finish.fault⟩ := by
  obtain ⟨mode, tokens⟩ := l
  cases mode <;> simp [behind, finish]

/-- Tokens without a tag in front of all others leave the tree as it is. -/
theorem tree_behind
    {earlier : List Token}
    (htags : ∀ t ∈ earlier, t.isTag = false)
    (l : Lexing) :
    (l.behind earlier).tree = l.tree := by
  have hearlier : earlier.reverse.foldlM Progress.take {} = .ok {} := by
    apply Progress.foldlM_take_outside
    intro t ht
    exact htags t (List.mem_reverse.1 ht)
  rw [tree, finish_behind]
  dsimp only
  rw [Progress.foldlM_take_append hearlier, tree]

theorem isTag_of_mem_flushText
    {seen : Bytes}
    {t : Token}
    (ht : t ∈ Mode.flushText seen) :
    t.isTag = false := by
  unfold Mode.flushText at ht
  split at ht
  · cases ht
  · obtain rfl := List.mem_singleton.1 ht
    rfl

/-- Text that is pending before the root does not count. -/
theorem tree_foldl_feed_text
    (seen other : Bytes)
    (bytes : Bytes) :
    (bytes.foldl feed ⟨.text seen, []⟩).tree = (bytes.foldl feed ⟨.text other, []⟩).tree := by
  induction bytes generalizing seen other with
  | nil =>
    -- Neither document has a root.
    have hnone : ∀ pending, tree ⟨.text pending, []⟩ = .error .noRoot := by
      intro pending
      have hitems : (finish ⟨.text pending, []⟩).items = Mode.flushText pending := by
        simp [finish, reverse_flushText]
      rw [tree, hitems, Progress.foldlM_take_outside fun t => isTag_of_mem_flushText]
      rfl
    rw [List.foldl_nil, List.foldl_nil, hnone, hnone]
  | cons b bytes ih =>
    -- Markup completes the text, which stays behind as a token that is no tag.
    have hbegins :
        ∀ mode : Mode, (∀ pending, (Mode.text pending).step b = (mode, Mode.flushText pending)) →
          ∀ pending,
            (bytes.foldl feed (feed ⟨.text pending, []⟩ b)).tree =
              (bytes.foldl feed ⟨mode, []⟩).tree := by
      intro mode hstep pending
      have hfeed : feed ⟨.text pending, []⟩ b = behind ⟨mode, []⟩ (Mode.flushText pending) := by
        simp [feed, behind, hstep, reverse_flushText]
      rw [hfeed, foldl_feed_behind, tree_behind fun t => isTag_of_mem_flushText]
    rw [List.foldl_cons, List.foldl_cons]
    by_cases hopens : b = 0x3C
    · have hstep : ∀ pending, (Mode.text pending).step b = (.opened, Mode.flushText pending) := by
        intro pending
        rw [hopens]
        rfl
      rw [hbegins _ hstep, hbegins _ hstep]
    · by_cases hrefers : b = 0x26
      · have hstep :
            ∀ pending, (Mode.text pending).step b = (.reference [], Mode.flushText pending) := by
          intro pending
          rw [hrefers]
          rfl
        rw [hbegins _ hstep, hbegins _ hstep]
      · have hgoes : ∀ pending, feed ⟨.text pending, []⟩ b = ⟨.text (b :: pending), []⟩ := by
          intro pending
          simp [feed, Mode.step, hopens, hrefers]
        rw [hgoes, hgoes]
        exact ih _ _

/-- Whether nothing but text and asides has been read, and nothing else has begun. -/
def isOutside (l : Lexing) : Bool :=
  match l.mode with
  | .text _ => l.tokens.all fun t => !t.isTag
  | _ => false

/-- A reading that is still outside goes on as from the beginning. -/
theorem tree_foldl_feed_of_isOutside
    {l : Lexing}
    (houtside : l.isOutside = true)
    (bytes : Bytes) :
    (bytes.foldl feed l).tree = (bytes.foldl feed {}).tree := by
  obtain ⟨mode, tokens⟩ := l
  cases mode with
  | text seen =>
    have htags : ∀ t ∈ tokens, t.isTag = false := by
      intro t ht
      simpa using List.all_eq_true.1 houtside t ht
    have hbehind : (⟨.text seen, tokens⟩ : Lexing) = behind ⟨.text seen, []⟩ tokens := rfl
    rw [hbehind, foldl_feed_behind, tree_behind htags]
    exact tree_foldl_feed_text seen [] bytes
  | _ => cases houtside

end Lexing

/-- A byte order mark counts as text before the root. -/
theorem parse_eq_tree
    (bytes : Bytes) :
    parse bytes = (bytes.foldl Lexing.feed {}).tree := by
  have hread : parse bytes = ((withoutMark bytes).foldl Lexing.feed {}).tree := parse_eq bytes
  rw [hread]
  unfold withoutMark
  split
  · exact Lexing.tree_foldl_feed_text [] [0xBF, 0xBB, 0xEF] _
  · rfl

/-- Whether bytes can stand before a root without any trace. -/
def isProlog (start : Bytes) : Bool :=
  (start.foldl Lexing.feed {}).isOutside

/-- The tree of a document is that of what follows its prolog, and a document that is
refused is refused for the same reason. -/
theorem parse_append_of_isProlog
    {start : Bytes}
    (hstart : isProlog start = true)
    (bytes : Bytes) :
    parse (start ++ bytes) = parse bytes := by
  rw [parse_eq_tree, parse_eq_tree, List.foldl_append]
  exact Lexing.tree_foldl_feed_of_isOutside hstart bytes

theorem isProlog_declaration :
    isProlog (Utf8.encode declaration) = true := by
  decide +kernel

end Xml
end PimDav
