import PimDav.Proofs.Xml.Built

/-!
# Trees laid out flat

A tree shows a sequence of marks: its elements open and close, and between these
marks it says its texts.  The sequence determines the tree.  A document may say
a text in pieces, or outside of every element; such a sequence is tidied before
it is compared with that of a tree.

The opening and closing marks alone are those of one element exactly when they
are balanced and none of them stands outside of the first pair.
-/

namespace PimDav
namespace Xml

inductive Mark where
  | opens (tag : Tag)
  /-- The innermost open element ends. -/
  | closes
  | tells (s : String)
  deriving DecidableEq, Repr

namespace Mark

def isTag : Mark → Bool
  | tells _ => false
  | _ => true

@[simp] theorem isTag_opens
    (tag : Tag) :
    (opens tag).isTag = true := by
  rfl

@[simp] theorem isTag_closes :
    closes.isTag = true := by
  rfl

@[simp] theorem isTag_tells
    (s : String) :
    (tells s).isTag = false := by
  rfl

/-- A mark in front of others: a text joins the text that it meets, and an empty text
leaves no mark. -/
def joinTo : Mark → List Mark → List Mark
  | tells s, tells t :: rest => tells (s ++ t) :: rest
  | tells s, rest => if s.isEmpty then rest else tells s :: rest
  | opens tag, rest => opens tag :: rest
  | closes, rest => closes :: rest

/-- The marks with texts that follow one another made one. -/
def joined (marks : List Mark) : List Mark :=
  marks.foldr joinTo []

/-- The marks without the texts that are said where no element is open, when there are
`depth` open elements at the beginning. -/
def withinRoot : Nat → List Mark → List Mark
  | _, [] => []
  | depth, opens tag :: rest => opens tag :: withinRoot (depth + 1) rest
  | depth, closes :: rest => closes :: withinRoot (depth - 1) rest
  | 0, tells _ :: rest => withinRoot 0 rest
  | depth + 1, tells s :: rest => tells s :: withinRoot (depth + 1) rest

/-- Every element that opens also closes, after those that were opened inside. -/
inductive Balanced : List Mark → Prop where
  | nothing : Balanced []
  | element
      (tag : Tag)
      {inside after : List Mark}
      (hinside : Balanced inside)
      (hafter : Balanced after) :
      Balanced (opens tag :: (inside ++ closes :: after))

/-- The marks of exactly one element, with nothing before and after it. -/
def OneElement (marks : List Mark) : Prop :=
  ∃ tag inside, Balanced inside ∧ marks = opens tag :: (inside ++ [closes])

@[simp] theorem joinTo_empty
    (marks : List Mark) :
    (tells "").joinTo marks = marks := by
  rcases marks with _ | ⟨_ | _ | t, rest⟩ <;> simp [joinTo]

theorem joinTo_joinTo
    (s t : String)
    (marks : List Mark) :
    (tells s).joinTo ((tells t).joinTo marks) = (tells (s ++ t)).joinTo marks := by
  by_cases ht : t = ""
  · rw [ht, joinTo_empty, String.append_empty]
  · rcases marks with _ | ⟨_ | _ | u, rest⟩ <;> simp [joinTo, ht, String.append_assoc]

theorem joinTo_append_tag
    {tag : Mark}
    (htag : tag.isTag = true)
    (m : Mark)
    (before after : List Mark) :
    m.joinTo (before ++ tag :: after) = m.joinTo before ++ tag :: after := by
  rcases m with _ | _ | s
  · rfl
  · rfl
  · rcases before with _ | ⟨_ | _ | t, rest⟩
    · cases tag with
      | tells t => cases htag
      | _ => by_cases hs : s = "" <;> simp [joinTo, hs]
    all_goals by_cases hs : s = "" <;> simp [joinTo, hs]

/-- No text is joined across a tag. -/
theorem joined_append_tag
    {tag : Mark}
    (htag : tag.isTag = true)
    (before after : List Mark) :
    joined (before ++ tag :: after) = joined before ++ tag :: joined after := by
  induction before with
  | nil =>
    cases tag with
    | tells t => cases htag
    | _ => rfl
  | cons m before ih =>
    have hcons : ∀ marks : List Mark, joined (m :: marks) = m.joinTo (joined marks) := fun _ => rfl
    rw [List.cons_append, hcons, ih, joinTo_append_tag htag, hcons]

/-- It does not matter in how many steps texts are joined. -/
theorem joined_joined_append
    (before after : List Mark) :
    joined (joined before ++ after) = joined (before ++ after) := by
  have hfold :
      ∀ marks : List Mark, joined (marks ++ after) = marks.foldr joinTo (joined after) :=
    fun _ => List.foldr_append
  rw [hfold, hfold]
  generalize joined after = rest
  induction before with
  | nil => rfl
  | cons m before ih =>
    have hcons : joined (m :: before) = m.joinTo (joined before) := rfl
    have hjoin :
        ∀ marks : List Mark,
          (m.joinTo marks).foldr joinTo rest = m.joinTo (marks.foldr joinTo rest) := by
      intro marks
      rcases m with _ | _ | s
      · rfl
      · rfl
      · rcases marks with _ | ⟨_ | _ | t, marks⟩
        case cons.tells => exact (joinTo_joinTo s t _).symm
        all_goals
          by_cases hs : s = ""
          · rw [hs, joinTo_empty, joinTo_empty]
          · simp [joinTo, hs]
    rw [hcons, hjoin, ih, List.foldr_cons]

/-- Tidying a sequence leaves its tags as they are. -/
theorem filter_isTag_joined
    (marks : List Mark) :
    (joined marks).filter isTag = marks.filter isTag := by
  induction marks with
  | nil => rfl
  | cons m marks ih =>
    have hcons : joined (m :: marks) = m.joinTo (joined marks) := rfl
    have hjoin :
        ∀ marks : List Mark, (m.joinTo marks).filter isTag = (m :: marks).filter isTag := by
      intro marks
      rcases m with _ | _ | s
      · rfl
      · rfl
      · rcases marks with _ | ⟨_ | _ | t, marks⟩
        case cons.tells => rfl
        all_goals by_cases hs : s = "" <;> simp [joinTo, hs]
    rw [hcons, hjoin, List.filter_cons, List.filter_cons, ih]

theorem filter_isTag_withinRoot
    (depth : Nat)
    (marks : List Mark) :
    (withinRoot depth marks).filter isTag = marks.filter isTag := by
  fun_induction withinRoot depth marks with
  | case1 => rfl
  | case2 depth tag rest ih => simp [ih]
  | case3 depth rest ih => simp [ih]
  | case4 s rest ih => simp [ih]
  | case5 depth s rest ih => simp [ih]

end Mark

namespace Content

/-- The marks of a content, in document order. -/
def marks : Content → List Mark
  | nothing => []
  | text v after => .tells v :: marks after
  | element tag inside after => .opens tag :: (marks inside ++ .closes :: marks after)

/-- A closing mark that belongs to no element of a content tells where the content
ends, and so the marks before it tell the content. -/
theorem marks_append_closes_inj
    {c d : Content}
    {rest more : List Mark}
    (hmarks : c.marks ++ .closes :: rest = d.marks ++ .closes :: more) :
    c = d ∧ rest = more := by
  induction c generalizing d rest more with
  | nothing =>
    cases d with
    | nothing => exact ⟨rfl, List.tail_eq_of_cons_eq hmarks⟩
    | text w after => cases hmarks
    | element tag inside after => cases hmarks
  | text v after ih =>
    cases d with
    | nothing => cases hmarks
    | text w following =>
      simp only [marks, List.cons_append, List.cons.injEq, Mark.tells.injEq] at hmarks
      obtain ⟨rfl, hmarks⟩ := hmarks
      obtain ⟨rfl, hrest⟩ := ih hmarks
      exact ⟨rfl, hrest⟩
    | element tag inside following => cases hmarks
  | element tag inside after ihInside ihAfter =>
    cases d with
    | nothing => cases hmarks
    | text w following => cases hmarks
    | element other within following =>
      simp only [marks, List.cons_append, List.append_assoc, List.cons.injEq,
        Mark.opens.injEq] at hmarks
      obtain ⟨rfl, hmarks⟩ := hmarks
      obtain ⟨hinside, hmarks⟩ := ihInside hmarks
      obtain ⟨hafter, hrest⟩ := ihAfter hmarks
      exact ⟨by rw [hinside, hafter], hrest⟩

theorem marks_append
    (c d : Content) :
    (c.append d).marks = c.marks ++ d.marks := by
  induction c with
  | nothing => rfl
  | text v after ih => simp [append, marks, ih]
  | element tag inside after _ ih => simp [append, marks, ih]

theorem balanced_marks
    (c : Content) :
    Mark.Balanced (c.marks.filter Mark.isTag) := by
  induction c with
  | nothing => exact .nothing
  | text v after ih => simpa [marks] using ih
  | element tag inside after ihInside ihAfter =>
    simpa [marks] using Mark.Balanced.element tag ihInside ihAfter

/-- Joined texts have nothing left to join. -/
theorem joined_marks
    {c : Content}
    (hjoined : c.isJoined = true) :
    Mark.joined c.marks = c.marks := by
  induction c with
  | nothing => rfl
  | text v after ih =>
    simp only [isJoined, Bool.and_eq_true, Bool.not_eq_true'] at hjoined
    obtain ⟨⟨hv, hbegin⟩, hafter⟩ := hjoined
    have hcons : Mark.joined (.tells v :: after.marks) =
        (Mark.tells v).joinTo (Mark.joined after.marks) := rfl
    rw [marks, hcons, ih hafter]
    cases after with
    | nothing => simp [marks, Mark.joinTo, hv]
    | text w more => cases hbegin
    | element tag inside more => simp [marks, Mark.joinTo, hv]
  | element tag inside after ihInside ihAfter =>
    simp only [isJoined, Bool.and_eq_true] at hjoined
    have hcons :
        Mark.joined (.opens tag :: (inside.marks ++ .closes :: after.marks)) =
          .opens tag :: Mark.joined (inside.marks ++ .closes :: after.marks) := rfl
    rw [marks, hcons, Mark.joined_append_tag rfl, ihInside hjoined.1, ihAfter hjoined.2]

/-- A text that is added joins the marks. -/
theorem marks_addText
    (s : String)
    {c : Content}
    (hjoined : c.isJoined = true) :
    (c.addText s).marks = Mark.joined (c.marks ++ [.tells s]) := by
  induction c with
  | nothing =>
    by_cases hs : s = ""
    · rw [hs, addText_empty]
      rfl
    · simp [addText, marks, Mark.joined, Mark.joinTo, hs]
  | text v after ih =>
    have hcons : Mark.joined ((text v after).marks ++ [.tells s]) =
        (Mark.tells v).joinTo (Mark.joined (after.marks ++ [.tells s])) := rfl
    simp only [isJoined, Bool.and_eq_true, Bool.not_eq_true'] at hjoined
    obtain ⟨⟨hv, hbegin⟩, hafter⟩ := hjoined
    rw [hcons, ← ih hafter]
    cases hnothing : after.isNothing with
    | true =>
      rw [eq_nothing_of_isNothing hnothing]
      by_cases hs : s = ""
      · rw [hs, addText_empty, addText_empty]
        simp [marks, Mark.joinTo, hv]
      · simp [addText, marks, Mark.joinTo, hs]
    | false =>
      have hstill := beginsWithText_addText s hnothing
      rw [addText_text hnothing, marks]
      cases hadded : after.addText s with
      | nothing => simp [marks, Mark.joinTo, hv]
      | text w more =>
        rw [hadded, hbegin] at hstill
        cases hstill
      | element tag inside more => simp [marks, Mark.joinTo, hv]
  | element tag inside after _ ih =>
    simp only [isJoined, Bool.and_eq_true] at hjoined
    have hcons :
        Mark.joined ((element tag inside after).marks ++ [.tells s]) =
          .opens tag :: Mark.joined (inside.marks ++ .closes :: (after.marks ++ [.tells s])) := by
      simp [marks, Mark.joined, Mark.joinTo]
    rw [addText, marks, hcons, Mark.joined_append_tag rfl, joined_marks hjoined.1, ih hjoined.2]

end Content

namespace Element

theorem marks_alone
    (e : Element) :
    e.alone.marks = .opens e.tag :: (e.content.marks ++ [.closes]) := by
  rfl

/-- An element is determined by its marks. -/
theorem eq_of_marks_alone_eq
    {e f : Element}
    (hmarks : e.alone.marks = f.alone.marks) :
    e = f := by
  rw [marks_alone, marks_alone, List.cons.injEq, Mark.opens.injEq] at hmarks
  obtain ⟨htag, hmarks⟩ := hmarks
  obtain ⟨hcontent, -⟩ := Content.marks_append_closes_inj hmarks
  cases e
  cases f
  simp_all

theorem oneElement_marks_alone
    (e : Element) :
    Mark.OneElement (e.alone.marks.filter Mark.isTag) :=
  ⟨e.tag, _, e.content.balanced_marks, by simp [marks_alone]⟩

end Element
end Xml
end PimDav
