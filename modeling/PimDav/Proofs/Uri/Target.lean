import PimDav.Href

/-!
# What a target holds

The path of an address that was read begins with a slash and holds no character
that would end it, and a target without a fragment is written as it was read.
-/

namespace PimDav
namespace Text

variable {α : Type} {p : α → Bool}

/-- A part without a separator goes in front of the first piece. -/
theorem cutWhere_append
    {front : List α}
    (hfront : ∀ a ∈ front, p a = false)
    (l : List α) :
    cutWhere p (front ++ l) = (front ++ (cutWhere p l).1, (cutWhere p l).2) := by
  induction front with
  | nil => rfl
  | cons a front ih =>
    rw [List.cons_append, cutWhere, hfront a List.mem_cons_self,
      ih fun b hb => hfront b (List.mem_cons_of_mem a hb)]
    rfl

/-- The same for one character as the separator. -/
theorem cutWhere_append_of_not_mem
    {sep : Char}
    {front : List Char}
    (hfront : sep ∉ front)
    (l : List Char) :
    cutWhere (· == sep) (front ++ l) =
      (front ++ (cutWhere (· == sep) l).1, (cutWhere (· == sep) l).2) := by
  apply cutWhere_append
  intro c hc
  rw [beq_eq_false_iff_ne]
  rintro rfl
  exact hfront hc

/-- The two sides of a cut with the separator between them are the whole. -/
theorem cutWhere_whole
    (sep : Char)
    (cs : List Char) :
    (cutWhere (· == sep) cs).1 ++
        ((cutWhere (· == sep) cs).2.map (sep :: ·)).getD [] = cs := by
  induction cs with
  | nil => rfl
  | cons c cs ih =>
    cases hc : c == sep with
    | true => simp [cutWhere, beq_iff_eq.1 hc]
    | false => simpa [cutWhere, hc] using ih

/-- The same for texts. -/
theorem cut_whole
    (sep : Char)
    (s : String) :
    (cut sep s).1 ++ ((cut sep s).2.map (String.ofList [sep] ++ ·)).getD "" = s := by
  have hwhole := cutWhere_whole sep s.toList
  rw [← String.toList_inj, cut]
  cases hrest : (cutWhere (· == sep) s.toList).2 with
  | none => simpa [hrest] using hwhole
  | some rest => simpa [hrest] using hwhole

end Text

namespace Target

/-- A path that begins with a slash and holds nothing that would end it. -/
structure IsPath (path : String) : Prop where
  slash : ∃ cs, path.toList = '/' :: cs
  plain : ∀ c ∈ path.toList, c ≠ '?' ∧ c ≠ '#'

theorem isPath_slash : IsPath "/" where
  slash := ⟨[], rfl⟩
  plain := by
    intro c hc
    obtain rfl := List.mem_singleton.1 hc
    decide

theorem ne_of_isPathChar
    {c : Char}
    (hc : isPathChar c = true) :
    c ≠ '?' ∧ c ≠ '#' := by
  constructor
  · rintro rfl
    revert hc
    decide
  · rintro rfl
    revert hc
    decide

/-- What it takes to read a target: its path and its query are what stands before and
after the first question mark, up to a fragment. -/
theorem ofChars?_eq_some
    {cs : List Char}
    {t : Target}
    (hread : ofChars? cs = some t) :
    ∃ path query,
      Text.cutWhere (· == '?') (cs.takeWhile (· != '#')) = (path, query) ∧
        path.all isPathChar = true ∧
        t.path = (if path.isEmpty then "/" else String.ofList path) ∧
        t.query = query.map String.ofList := by
  unfold ofChars? at hread
  dsimp only at hread
  split at hread
  case isFalse => cases hread
  case isTrue hall =>
    obtain rfl := Option.some.inj hread
    exact ⟨_, _, rfl, (Bool.and_eq_true_iff.1 hall).1, rfl, rfl⟩

/-- The path of a target that begins with its path, its query or a fragment. -/
theorem isPath_of_ofChars?
    {cs : List Char}
    {t : Target}
    (hread : ofChars? cs = some t)
    (hfirst : ∀ c ∈ cs.head?, c = '/' ∨ c = '?' ∨ c = '#') :
    IsPath t.path := by
  obtain ⟨path, query, hcut, hall, hpath, -⟩ := ofChars?_eq_some hread
  have hbefore : path = (cs.takeWhile (· != '#')).takeWhile fun c => !(c == '?') := by
    rw [← Text.cutWhere_fst, hcut]
  rw [hpath]
  cases hempty : path.isEmpty with
  | true => exact isPath_slash
  | false =>
    refine ⟨?_, ?_⟩
    · -- Neither a question mark nor a fragment leaves anything for the path.
      cases cs with
      | nil => simp [hbefore] at hempty
      | cons c cs =>
        rcases hfirst c rfl with rfl | rfl | rfl
        · refine ⟨(cs.takeWhile (· != '#')).takeWhile fun c => !(c == '?'), ?_⟩
          simp [hbefore]
        · simp [hbefore] at hempty
        · simp [hbefore] at hempty
    · intro c hc
      rw [if_neg Bool.false_ne_true, String.toList_ofList] at hc
      exact ne_of_isPathChar (List.all_eq_true.1 hall c hc)

/-- A target that begins with a slash and has no fragment is written as it was
read. -/
theorem text_of_read?
    {s : String}
    {t : Target}
    (hread : read? s = some t)
    (hslash : ∃ cs, s.toList = '/' :: cs)
    (hfragment : '#' ∉ s.toList) :
    t.text = s := by
  obtain ⟨cs, hcs⟩ := hslash
  have hchars : ofChars? ('/' :: cs) = some t := by
    unfold read? at hread
    rw [hcs] at hread
    split at hread
    · cases hread
    · simpa using hread
  have hall : ('/' :: cs).takeWhile (· != '#') = '/' :: cs := by
    have hnone : ∀ c ∈ '/' :: cs, (c != '#') = true := by
      intro c hc
      rw [bne_iff_ne]
      rintro rfl
      exact hfragment (hcs ▸ hc)
    rw [← List.append_nil ('/' :: cs), List.takeWhile_append_of_pos hnone]
    rfl
  obtain ⟨path, query, hcut, -, hpath, hquery⟩ := ofChars?_eq_some hchars
  have hbegin : path.isEmpty = false := by
    have hbefore : path = ('/' :: cs).takeWhile fun c => !(c == '?') := by
      rw [← Text.cutWhere_fst, ← hall, hcut]
    simp [hbefore]
  have hwhole := Text.cutWhere_whole '?' ('/' :: cs)
  rw [← hall, hcut, hall] at hwhole
  rw [text, hpath, hquery, hbegin, if_neg Bool.false_ne_true, ← String.toList_inj, hcs, ← hwhole]
  cases query with
  | none => simp
  | some query => simp

end Target

namespace Uri

/-- The characters up to the target of an address. -/
def inAuthority (c : Char) : Bool :=
  c != '/' && c != '?' && c != '#'

/-- What it takes to read an address. -/
theorem read_eq_ok
    {s : String}
    {uri : Uri}
    (hread : read s = .ok uri) :
    ∃ rest,
      splitScheme? s = some (uri.scheme, rest) ∧
        uri.authority = String.ofList (rest.takeWhile inAuthority) ∧
        Target.ofChars? (rest.dropWhile inAuthority) = some uri.target := by
  unfold read at hread
  split at hread
  case isTrue => cases hread
  split at hread
  case isTrue => cases hread
  split at hread
  case isTrue =>
    split at hread <;> cases hread
  split at hread
  case h_1 =>
    split at hread <;> cases hread
  case h_2 scheme rest hscheme =>
    dsimp only at hread
    split at hread
    case h_2 => cases hread
    case h_1 target htarget =>
      split at hread
      case isFalse => cases hread
      case isTrue =>
        obtain rfl := Except.ok.inj hread
        exact ⟨rest, hscheme, rfl, htarget⟩

/-- Every address that was read has a path that begins with a slash. -/
theorem isPath_of_read
    {s : String}
    {uri : Uri}
    (hread : read s = .ok uri) :
    Target.IsPath uri.path := by
  obtain ⟨rest, -, -, htarget⟩ := read_eq_ok hread
  apply Target.isPath_of_ofChars? htarget
  intro c hc
  have hfirst := List.head?_dropWhile_not inAuthority rest
  rw [hc] at hfirst
  simp only [inAuthority, Bool.and_eq_false_iff, bne_eq_false_iff_eq] at hfirst
  rcases hfirst with (hslash | hquestion) | hfragment
  · exact Or.inl hslash
  · exact Or.inr (Or.inl hquestion)
  · exact Or.inr (Or.inr hfragment)

end Uri
end PimDav
