import PimDav.Text.Blank

/-!
# Taking text apart

Cutting at a separator, splitting into pieces or words, and taking a known
beginning or end away.  Everything is defined on lists of characters; the
versions on strings only convert.
-/

namespace PimDav
namespace Text

/-- The comma-separated pieces of a text, untrimmed. -/
def commaPieces (s : String) : List String :=
  (s.toList.splitOn ',').map String.ofList

/-- The words of a text: its non-empty pieces between blanks. -/
def words (s : String) : List String :=
  ((s.toList.splitOnP isBlank).filter fun piece => !piece.isEmpty).map String.ofList

/-- The part before the first element that satisfies `p`, and the part after it
when there is one. -/
def cutWhere
    {α : Type}
    (p : α → Bool) : List α → List α × Option (List α)
  | [] => ([], none)
  | a :: l =>
    if p a then ([], some l)
    else
      let rest := cutWhere p l
      (a :: rest.1, rest.2)

/-- What stands before the cut, the separator and what follows make up the whole. -/
theorem cutWhere_some
    {α : Type}
    {p : α → Bool}
    {l before after : List α}
    (hcut : cutWhere p l = (before, some after)) :
    ∃ a, p a = true ∧ l = before ++ a :: after := by
  induction l generalizing before with
  | nil => simp [cutWhere] at hcut
  | cons a l ih =>
    cases ha : p a with
    | true =>
      obtain ⟨rfl, rfl⟩ : [] = before ∧ l = after := by simpa [cutWhere, ha] using hcut
      exact ⟨a, ha, rfl⟩
    | false =>
      obtain ⟨rfl, hl⟩ : a :: (cutWhere p l).1 = before ∧ (cutWhere p l).2 = some after := by
        simpa [cutWhere, ha] using hcut
      obtain ⟨b, hb, hwhole⟩ := ih (Prod.ext rfl hl)
      exact ⟨b, hb, by rw [List.cons_append, ← hwhole]⟩

@[simp] theorem cutWhere_fst
    {α : Type}
    (p : α → Bool)
    (l : List α) :
    (cutWhere p l).1 = l.takeWhile fun a => !p a := by
  induction l with
  | nil => rfl
  | cons a l ih => cases ha : p a <;> simp [cutWhere, ha, ih]

/-- The text before the first `sep`, and the text after it when there is one. -/
def cut
    (sep : Char)
    (s : String) : String × Option String :=
  let parts := cutWhere (· == sep) s.toList
  (String.ofList parts.1, parts.2.map String.ofList)

/-- Whether `s` begins with `start`. -/
def beginsWith (start s : String) : Bool :=
  start.toList.isPrefixOf s.toList

/-- What follows `start` at the beginning of `s`. -/
def after? (start s : String) : Option String :=
  (start.toList.isPrefixOf? s.toList).map String.ofList

theorem beginsWith_iff
    {start s : String} :
    beginsWith start s = true ↔ ∃ rest, s = start ++ rest := by
  constructor
  · intro hbegin
    obtain ⟨cs, hcs⟩ := List.isPrefixOf_iff_prefix.1 hbegin
    refine ⟨String.ofList cs, ?_⟩
    rw [← String.toList_inj]
    simp [hcs]
  · rintro ⟨rest, rfl⟩
    exact List.isPrefixOf_iff_prefix.2 ⟨rest.toList, by simp⟩

/-- Whether `s` ends with `tail`. -/
def endsWith (tail s : String) : Bool :=
  tail.toList.isSuffixOf s.toList

/-- The text without the leading occurrences of `c`. -/
def dropLeading
    (c : Char)
    (s : String) : String :=
  String.ofList (s.toList.dropWhile (· == c))

/-- The text without the trailing occurrences of `c`. -/
def dropTrailing
    (c : Char)
    (s : String) : String :=
  String.ofList (s.toList.reverse.dropWhile (· == c)).reverse

end Text
end PimDav
