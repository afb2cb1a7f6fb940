import Mathlib.Data.List.Basic
import Mathlib.Data.List.TakeWhile
import PimDav.Text.Split

/-!
# Trimmed text and its words

Trimming changes nothing in a text whose first and last characters show, and it
never changes the words of a text.  What follows a known beginning is all the rest.
-/

namespace PimDav
namespace Text

theorem after?_eq_some_iff
    {start s rest : String} :
    after? start s = some rest ↔ s = start ++ rest := by
  rw [after?, Option.map_eq_some_iff]
  constructor
  · rintro ⟨cs, hcs, rfl⟩
    rw [← String.toList_inj, String.toList_append, String.toList_ofList]
    exact (List.isPrefixOf?_eq_some_iff_append_eq.1 hcs).symm
  · rintro rfl
    refine ⟨rest.toList, ?_, String.ofList_toList⟩
    rw [List.isPrefixOf?_eq_some_iff_append_eq, String.toList_append]

theorem trimWhere_eq_self
    {α : Type}
    {p : α → Bool}
    {l : List α}
    (hfirst : ∀ a ∈ l.head?, p a = false)
    (hlast : ∀ a ∈ l.getLast?, p a = false) :
    trimWhere p l = l := by
  have hkeep : ∀ l : List α, (∀ a ∈ l.head?, p a = false) → l.dropWhile p = l := by
    intro l hfirst
    rw [List.dropWhile_eq_self_iff]
    intro hl
    simp [hfirst l[0] (by simp [List.head?_eq_getElem?])]
  have hend : ∀ a ∈ l.reverse.head?, p a = false := by
    rw [List.head?_reverse]
    exact hlast
  rw [trimWhere, hkeep l hfirst, hkeep l.reverse hend, List.reverse_reverse]

/-- Blanks around a text do not change what is left of it. -/
theorem trimWhere_between
    {α : Type}
    {p : α → Bool}
    {before after : List α}
    (hbefore : ∀ a ∈ before, p a = true)
    (hafter : ∀ a ∈ after, p a = true)
    (l : List α) :
    trimWhere p (before ++ l ++ after) = trimWhere p l := by
  rw [trimWhere, trimWhere, List.append_assoc, List.dropWhile_append_of_pos hbefore]
  congr 1
  induction l with
  | nil =>
    have hnothing : (after ++ []).dropWhile p = [] := List.dropWhile_append_of_pos hafter
    rw [List.nil_append, ← List.append_nil after, hnothing]
    rfl
  | cons a l ih =>
    cases ha : p a with
    | true =>
      have hdrop : ∀ l : List α, (a :: l).dropWhile p = l.dropWhile p := by
        simp [ha]
      rw [List.cons_append, hdrop, hdrop, ih]
    | false =>
      have hkeep : ∀ l : List α, (a :: l).dropWhile p = a :: l := by
        simp [ha]
      rw [List.cons_append, hkeep, hkeep, ← List.cons_append, List.reverse_append,
        List.dropWhile_append_of_pos fun x hx => hafter x (List.mem_reverse.1 hx)]

/-- What is left of a text stands in it between blanks. -/
theorem exists_trimWhere
    {α : Type}
    (p : α → Bool)
    (l : List α) :
    ∃ before after, l = before ++ trimWhere p l ++ after ∧
      (∀ a ∈ before, p a = true) ∧ ∀ a ∈ after, p a = true := by
  have hend := List.takeWhile_append_dropWhile (p := p) (l := (l.dropWhile p).reverse)
  refine ⟨l.takeWhile p, ((l.dropWhile p).reverse.takeWhile p).reverse, ?_,
    List.all_eq_true.1 List.all_takeWhile,
    fun a ha => List.all_eq_true.1 List.all_takeWhile a (List.mem_reverse.1 ha)⟩
  rw [trimWhere, List.append_assoc, ← List.reverse_append, hend, List.reverse_reverse,
    List.takeWhile_append_dropWhile]

theorem trimWhere_trimWhere
    {α : Type}
    (p : α → Bool)
    (l : List α) :
    trimWhere p (trimWhere p l) = trimWhere p l := by
  obtain ⟨before, after, hl, hbefore, hafter⟩ := exists_trimWhere p l
  rw [← trimWhere_between hbefore hafter, ← hl]

theorem isEmpty_eq_false_of_mem
    {s : String}
    {c : Char}
    (hmem : c ∈ s.toList) :
    s.isEmpty = false := by
  cases hempty : s.isEmpty with
  | false => rfl
  | true =>
    rw [String.isEmpty_iff.1 hempty] at hmem
    cases hmem

theorem trimmed?_eq_some_iff
    {s t : String} :
    trimmed? s = some t ↔ trim s = t ∧ t ≠ "" := by
  rw [trimmed?, Option.ite_none_left_eq_some, Option.some.injEq, String.isEmpty_iff]
  constructor
  · rintro ⟨hsome, rfl⟩
    exact ⟨rfl, hsome⟩
  · rintro ⟨rfl, hsome⟩
    exact ⟨hsome, rfl⟩

/-- What is left of a text is not empty. -/
theorem isEmpty_of_trimmed?
    {s t : String}
    (ht : trimmed? s = some t) :
    t.isEmpty = false := by
  rw [trimmed?] at ht
  split at ht
  case isTrue => cases ht
  case isFalse hsome =>
    cases ht
    exact eq_false_of_ne_true hsome

/-- Whether the last character of a text is a blank. -/
def endsBlank (s : String) : Bool :=
  s.toList.getLast?.any isBlank

/-- A text without a blank at either end is its own trimmed text. -/
theorem trimmed?_eq_some
    {s : String}
    {c : Char}
    {cs : List Char}
    (hs : s.toList = c :: cs)
    (hfirst : isBlank c = false)
    (hlast : endsBlank s = false) :
    trimmed? s = some s := by
  have htrim : trim s = s := by
    rw [trim, trimWhere_eq_self, String.ofList_toList]
    · intro a ha
      rw [hs] at ha
      obtain rfl := Option.some.inj ha
      exact hfirst
    · intro a ha
      rw [endsBlank, ha] at hlast
      exact hlast
  have hmem : c ∈ s.toList := by
    rw [hs]
    exact List.mem_cons_self
  rw [trimmed?, htrim, isEmpty_eq_false_of_mem hmem, if_neg Bool.false_ne_true]

/-- The last character of a trimmed text is no blank. -/
theorem endsBlank_trim
    (s : String) :
    endsBlank (trim s) = false := by
  rw [endsBlank, toList_trim, trimWhere, List.getLast?_reverse]
  have hfirst := List.head?_dropWhile_not isBlank (s.toList.dropWhile isBlank).reverse
  cases hhead : ((s.toList.dropWhile isBlank).reverse.dropWhile isBlank).head? with
  | none => rfl
  | some c =>
    rw [hhead] at hfirst
    exact hfirst

/-- A text ends like its own end. -/
theorem endsBlank_of_suffix
    {s t : String}
    (hsuffix : s.toList <:+ t.toList)
    (ht : endsBlank t = false) :
    endsBlank s = false := by
  obtain ⟨start, hwhole⟩ := hsuffix
  rw [endsBlank, ← hwhole, List.getLast?_append] at ht
  rw [endsBlank]
  cases hlast : s.toList.getLast? with
  | none => rfl
  | some c =>
    rw [hlast] at ht
    exact ht

@[simp] theorem trim_trim
    (s : String) :
    trim (trim s) = trim s := by
  rw [trim, toList_trim, trimWhere_trimWhere, ← trim]

/-- Blanks around a text do not change what is left of it. -/
theorem trim_between
    {before after : String}
    (hbefore : ∀ c ∈ before.toList, isBlank c = true)
    (hafter : ∀ c ∈ after.toList, isBlank c = true)
    (s : String) :
    trim (before ++ s ++ after) = trim s := by
  rw [trim, String.toList_append, String.toList_append, trimWhere_between hbefore hafter, ← trim]

theorem trim_eq_empty
    {s : String}
    (hs : ∀ c ∈ s.toList, isBlank c = true) :
    trim s = "" := by
  have hnothing : trim ("" ++ "" ++ s) = "" := trim_between (by simp) hs ""
  simpa using hnothing

/-- Something is left of every text but a blank one. -/
theorem isEmpty_trim
    (s : String) :
    (trim s).isEmpty = s.toList.all isBlank := by
  cases hblank : s.toList.all isBlank with
  | true =>
    rw [trim_eq_empty (List.all_eq_true.1 hblank)]
    rfl
  | false =>
    apply eq_false_of_ne_true
    intro hempty
    obtain ⟨before, after, hs, hbefore, hafter⟩ := exists_trimWhere isBlank s.toList
    rw [← toList_trim, String.isEmpty_iff.1 hempty, String.toList_empty, List.append_nil] at hs
    have hall : s.toList.all isBlank = true := by
      rw [hs, List.all_append, List.all_eq_true.2 hbefore, List.all_eq_true.2 hafter]
      rfl
    rw [hblank] at hall
    cases hall

/-- The trimmed texts of which something is left. -/
theorem filterMap_trimmed?
    (texts : List String) :
    texts.filterMap trimmed? = (texts.map trim).filter fun t => !t.isEmpty := by
  induction texts with
  | nil => rfl
  | cons s texts ih =>
    rw [List.filterMap_cons, List.map_cons, List.filter_cons, ← ih, trimmed?]
    cases (trim s).isEmpty <;> rfl

/-- The non-empty pieces between blanks. -/
def wordPieces (cs : List Char) : List (List Char) :=
  (cs.splitOnP isBlank).filter fun piece => !piece.isEmpty

theorem words_eq
    (s : String) :
    words s = (wordPieces s.toList).map String.ofList := by
  rfl

/-- A blank stands between words. -/
theorem wordPieces_append_cons
    {c : Char}
    (left right : List Char)
    (hc : isBlank c = true) :
    wordPieces (left ++ c :: right) = wordPieces left ++ wordPieces right := by
  rw [wordPieces, List.splitOnP_append_cons left right hc, List.filter_append]
  rfl

theorem wordPieces_dropWhile
    (cs : List Char) :
    wordPieces (cs.dropWhile isBlank) = wordPieces cs := by
  induction cs with
  | nil => rfl
  | cons c cs ih =>
    rw [List.dropWhile_cons]
    cases hc : isBlank c with
    | false => rfl
    | true => exact ih.trans (wordPieces_append_cons [] cs hc).symm

theorem wordPieces_reverse_dropWhile
    (cs : List Char) :
    wordPieces (cs.dropWhile isBlank).reverse = wordPieces cs.reverse := by
  induction cs with
  | nil => rfl
  | cons c cs ih =>
    rw [List.dropWhile_cons]
    cases hc : isBlank c with
    | false => rfl
    | true =>
      have hnil : wordPieces [] = [] := rfl
      rw [if_pos rfl, ih, List.reverse_cons, wordPieces_append_cons _ [] hc, hnil,
        List.append_nil]

theorem words_trim
    (s : String) :
    words (trim s) = words s := by
  rw [words_eq, words_eq, toList_trim, trimWhere, wordPieces_reverse_dropWhile,
    List.reverse_reverse, wordPieces_dropWhile]

theorem words_append_blank
    (s t : String) :
    words (s ++ " " ++ t) = words s ++ words t := by
  have hchars : (s ++ " " ++ t).toList = s.toList ++ ' ' :: t.toList := by simp
  rw [words_eq, hchars, wordPieces_append_cons _ _ (by decide), List.map_append]
  rfl

end Text
end PimDav
