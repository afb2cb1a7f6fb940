import Mathlib.Data.List.Induction
import PimDav.Xml.Entity

/-!
# What references mean

A reference stands for a character that markup keeps for itself, when it has one of five names,
or for the character with the number that it writes, in base ten or in base sixteen and with any
number of leading zeros.  A reference with another name stands for itself.
-/

namespace PimDav

namespace Text

/-- The digits with their values; those above nine are written small or large. -/
def digits : List (Char × Nat) :=
  "0123456789abcdef".toList.zipIdx ++ "ABCDEF".toList.zipIdx 10

/-- The characters write a number in a base, the digit of the lowest value last. -/
inductive Writes (base : Nat) : List Char → Nat → Prop
  | digit
      {c : Char}
      {d : Nat}
      (hdigit : (c, d) ∈ digits)
      (hbase : d < base) :
      Writes base [c] d
  | append
      {cs : List Char}
      {n : Nat}
      {c : Char}
      {d : Nat}
      (hcs : Writes base cs n)
      (hdigit : (c, d) ∈ digits)
      (hbase : d < base) :
      Writes base (cs ++ [c]) (n * base + d)

theorem digitValue?_of_mem_digits
    {c : Char}
    {d : Nat}
    (hdigit : (c, d) ∈ digits) :
    digitValue? c = some d := by
  have hall : ∀ digit ∈ digits, digitValue? digit.1 = some digit.2 := by decide
  exact hall (c, d) hdigit

theorem mem_digits_of_digitValue?
    {c : Char}
    {d : Nat}
    (hvalue : digitValue? c = some d) :
    (c, d) ∈ digits := by
  have hall : ∀ n < 103, ∀ d ∈ digitValue? (Char.ofNat n), (Char.ofNat n, d) ∈ digits := by
    decide +kernel
  have hsmall : c.toNat < 103 := by
    grind [digitValue?]
  have hmem := hall c.toNat hsmall d (by rw [Char.ofNat_toNat, hvalue]; rfl)
  rwa [Char.ofNat_toNat] at hmem

theorem addDigit?_of_mem_digits
    {base n : Nat}
    {c : Char}
    {d : Nat}
    (hdigit : (c, d) ∈ digits)
    (hbase : d < base) :
    addDigit? base n c = some (n * base + d) := by
  rw [addDigit?, digitValue?_of_mem_digits hdigit, Option.bind_some, if_pos hbase]

namespace Writes

variable {base : Nat} {cs : List Char} {n : Nat}

theorem ne_nil
    (hwrites : Writes base cs n) :
    cs ≠ [] := by
  cases hwrites with
  | digit => exact List.cons_ne_nil _ _
  | append => exact List.concat_ne_nil _ _

/-- A number is written with digits only. -/
theorem mem_digits
    (hwrites : Writes base cs n)
    {c : Char}
    (hc : c ∈ cs) :
    ∃ d, (c, d) ∈ digits := by
  induction hwrites with
  | digit hdigit =>
    obtain rfl := List.mem_singleton.1 hc
    exact ⟨_, hdigit⟩
  | append _ hdigit _ ih =>
    rcases List.mem_append.1 hc with hc | hc
    · exact ih hc
    · obtain rfl := List.mem_singleton.1 hc
      exact ⟨_, hdigit⟩

/-- No digit could be taken for the letter that announces base sixteen. -/
theorem head?_ne
    (hwrites : Writes base cs n) :
    cs.head? ≠ some 'x' := by
  intro hhead
  obtain ⟨d, hd⟩ := hwrites.mem_digits (List.mem_of_mem_head? hhead)
  have hall : ∀ digit ∈ digits, digit.1 ≠ 'x' := by decide
  exact hall _ hd rfl

theorem foldlM_addDigit?
    (hwrites : Writes base cs n) :
    cs.foldlM (addDigit? base) 0 = some n := by
  induction hwrites with
  | digit hdigit hbase =>
    rw [List.foldlM_cons, addDigit?_of_mem_digits hdigit hbase, Nat.zero_mul, Nat.zero_add]
    rfl
  | append _ hdigit hbase ih =>
    rw [List.foldlM_append, ih]
    show [_].foldlM (addDigit? base) _ = _
    rw [List.foldlM_cons, addDigit?_of_mem_digits hdigit hbase]
    rfl

/-- A written number is read as the number. -/
theorem number?_eq
    (hwrites : Writes base cs n) :
    number? base cs = some n := by
  rw [number?, if_neg (by simpa using hwrites.ne_nil), hwrites.foldlM_addDigit?]

/-- What is read as a number is written with its digits. -/
theorem of_foldlM_addDigit?
    (hne : cs ≠ [])
    (hread : cs.foldlM (addDigit? base) 0 = some n) :
    Writes base cs n := by
  induction cs using List.reverseRecOn generalizing n with
  | nil => exact absurd rfl hne
  | append_singleton cs c ih =>
    rw [List.foldlM_append, Option.bind_eq_bind, Option.bind_eq_some_iff] at hread
    obtain ⟨before, hbefore, hlast⟩ := hread
    rw [List.foldlM_cons, Option.bind_eq_bind, Option.bind_eq_some_iff] at hlast
    obtain ⟨whole, hlast, hwhole⟩ := hlast
    obtain rfl := Option.some.inj hwhole
    rw [addDigit?, Option.bind_eq_some_iff] at hlast
    obtain ⟨d, hd, hlast⟩ := hlast
    obtain ⟨hbase, hlast⟩ := Option.ite_none_right_eq_some.1 hlast
    obtain rfl := Option.some.inj hlast
    have hdigit := mem_digits_of_digitValue? hd
    cases cs with
    | nil =>
      obtain rfl := Option.some.inj hbefore
      rw [Nat.zero_mul, Nat.zero_add]
      exact .digit hdigit hbase
    | cons first cs => exact .append (ih (List.cons_ne_nil first cs) hbefore) hdigit hbase

theorem iff_number?_eq :
    Writes base cs n ↔ number? base cs = some n := by
  constructor
  · exact number?_eq
  · intro hread
    obtain ⟨hne, hread⟩ := Option.ite_none_left_eq_some.1 hread
    exact of_foldlM_addDigit? (by simpa using hne) hread

instance : Decidable (Writes base cs n) :=
  decidable_of_iff' _ iff_number?_eq

end Writes
end Text

namespace Xml

open Text (Writes)

/-- The five names that every reader knows, with their characters. -/
def knownNames : List (String × Char) :=
  [("lt", '<'), ("gt", '>'), ("amp", '&'), ("apos", '\x27'), ("quot", '\x22')]

/-- What a reference means, by what stands between its ampersand and its semicolon. -/
inductive Means : List Char → List Char → Prop
  | known
      {name : String}
      {c : Char}
      (hname : (name, c) ∈ knownNames) :
      Means name.toList [c]
  | decimal
      {digits : List Char}
      {c : Char}
      (hdigits : Writes 10 digits c.toNat)
      (hc : c ≠ '\x00') :
      Means ('#' :: digits) [c]
  | hexadecimal
      {digits : List Char}
      {c : Char}
      (hdigits : Writes 16 digits c.toNat)
      (hc : c ≠ '\x00') :
      Means ('#' :: 'x' :: digits) [c]
  | unknown
      {name : List Char}
      (hletters : name.all Char.isAlpha = true)
      (hname : ∀ entry ∈ knownNames, entry.1.toList ≠ name) :
      Means name ('&' :: name ++ [';'])

/-- The code of a character is read as the character. -/
theorem charOfCode?_toNat
    {c : Char}
    (hc : c ≠ '\x00') :
    charOfCode? c.toNat = some c := by
  have hcode : c.toNat ≠ 0 := fun hzero => hc (Char.toNat_inj.1 hzero)
  have hvalid : c.toNat.isValidChar := c.valid
  rw [charOfCode?, if_pos (by simp [hcode, hvalid]), Char.ofNat_toNat]

theorem referenceChar?_decimal
    {digits : List Char}
    (hx : digits.head? ≠ some 'x') :
    referenceChar? ('#' :: digits) = (Text.number? 10 digits).bind charOfCode? := by
  cases digits with
  | nil => rfl
  | cons c digits =>
    have hne : c ≠ 'x' := fun h => hx (congrArg some h)
    unfold referenceChar?
    split <;> simp_all

/-- A name of letters that is none of the five is not known. -/
theorem referenceChar?_unknown
    {name : List Char}
    (hletters : name.all Char.isAlpha = true)
    (hname : ∀ entry ∈ knownNames, entry.1.toList ≠ name) :
    referenceChar? name = none := by
  have hknown : ∀ known ∈ knownNames.map Prod.fst, name ≠ known.toList := by
    intro known hmem
    obtain ⟨entry, hentry, rfl⟩ := List.mem_map.1 hmem
    exact (hname entry hentry).symm
  have hsign : name.head? ≠ some '#' := by
    intro hhead
    exact absurd (List.all_eq_true.1 hletters '#' (List.mem_of_mem_head? hhead)) (by decide)
  unfold referenceChar?
  split
  · exact absurd rfl (hknown "lt" (by decide))
  · exact absurd rfl (hknown "gt" (by decide))
  · exact absurd rfl (hknown "amp" (by decide))
  · exact absurd rfl (hknown "apos" (by decide))
  · exact absurd rfl (hknown "quot" (by decide))
  · exact absurd rfl hsign
  · exact absurd rfl hsign
  · rfl

namespace Means

variable {name meaning : List Char}

/-- A reference is read as what it means. -/
theorem referenceText_eq
    (hmeans : Means name meaning) :
    referenceText (String.ofList name) = String.ofList meaning := by
  rw [referenceText, String.toList_ofList]
  cases hmeans with
  | known hname =>
    have hall : ∀ entry ∈ knownNames, referenceChar? entry.1.toList = some entry.2 := by decide
    rw [hall _ hname]
  | decimal hdigits hc =>
    rw [referenceChar?_decimal hdigits.head?_ne, hdigits.number?_eq, Option.bind_some,
      charOfCode?_toNat hc]
  | @hexadecimal digits c hdigits hc =>
    have hnumber : referenceChar? ('#' :: 'x' :: digits) =
        (Text.number? 16 digits).bind charOfCode? := rfl
    rw [hnumber, hdigits.number?_eq, Option.bind_some, charOfCode?_toNat hc]
  | unknown hletters hname =>
    rw [referenceChar?_unknown hletters hname, ← String.toList_inj]
    simp

/-- Nothing in a reference ends it or begins other markup. -/
theorem ne_of_mem
    (hmeans : Means name meaning)
    {d : Char}
    (hd : d ∈ name) :
    d ≠ '&' ∧ d ≠ ';' ∧ d ≠ '<' := by
  have hdigit : ∀ {base n digits}, Writes base digits n → d ∈ digits →
      d ≠ '&' ∧ d ≠ ';' ∧ d ≠ '<' := by
    intro base n digits hdigits hmem
    obtain ⟨value, hvalue⟩ := hdigits.mem_digits hmem
    have hall : ∀ digit ∈ Text.digits, digit.1 ≠ '&' ∧ digit.1 ≠ ';' ∧ digit.1 ≠ '<' := by decide
    exact hall _ hvalue
  cases hmeans with
  | known hname =>
    have hall : ∀ entry ∈ knownNames,
        '&' ∉ entry.1.toList ∧ ';' ∉ entry.1.toList ∧ '<' ∉ entry.1.toList := by
      decide
    obtain ⟨hamp, hsemicolon, hlt⟩ := hall _ hname
    exact ⟨fun h => hamp (h ▸ hd), fun h => hsemicolon (h ▸ hd), fun h => hlt (h ▸ hd)⟩
  | decimal hdigits hc =>
    rcases List.mem_cons.1 hd with rfl | hd
    · decide
    · exact hdigit hdigits hd
  | hexadecimal hdigits hc =>
    rcases List.mem_cons.1 hd with rfl | hd
    · decide
    rcases List.mem_cons.1 hd with rfl | hd
    · decide
    · exact hdigit hdigits hd
  | unknown hletters hname =>
    have halpha := List.all_eq_true.1 hletters d hd
    refine ⟨?_, ?_, ?_⟩ <;>
    · rintro rfl
      exact absurd halpha (by decide)

end Means
end Xml
end PimDav
