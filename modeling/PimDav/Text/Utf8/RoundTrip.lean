import PimDav.Text.Utf8

/-!
# Bytes and text, there and back

What was written as bytes is read back as it was.  The bytes of one character
lead the reader from between two characters through the stages inside it and
back to between two characters, and leave that character behind.
-/

namespace PimDav
namespace Utf8

theorem lead_two
    {n : Nat}
    (hlow : 2 ≤ n)
    (hhigh : n < 32) :
    lead (UInt8.ofNat (n + 192)) = (.inside 1 0x80 0xBF n, []) := by
  have hbyte : (UInt8.ofNat (n + 192)).toNat = n + 192 :=
    UInt8.toNat_ofNat_of_lt' (show n + 192 < 256 by omega)
  have h80 : ¬n + 192 < 0x80 := by omega
  have hC2 : ¬n + 192 < 0xC2 := by omega
  have hE0 : n + 192 < 0xE0 := by omega
  rw [lead, hbyte]
  simp [h80, hC2, hE0]

theorem lead_three
    {n : Nat}
    (hn : n < 16) :
    lead (UInt8.ofNat (n + 224)) =
      (.inside 2 (if n = 0 then 0xA0 else 0x80) (if n = 13 then 0x9F else 0xBF) n, []) := by
  have hbyte : (UInt8.ofNat (n + 224)).toNat = n + 224 :=
    UInt8.toNat_ofNat_of_lt' (show n + 224 < 256 by omega)
  have h80 : ¬n + 224 < 0x80 := by omega
  have hC2 : ¬n + 224 < 0xC2 := by omega
  have hE0 : ¬n + 224 < 0xE0 := by omega
  have hF0 : n + 224 < 0xF0 := by omega
  rw [lead, hbyte]
  by_cases hfirst : n = 0
  · simp [hfirst]
  · by_cases hsurrogate : n = 13
    · simp [hsurrogate]
    · simp [h80, hC2, hE0, hF0, hfirst, hsurrogate]

theorem lead_four
    {n : Nat}
    (hn : n ≤ 4) :
    lead (UInt8.ofNat (n + 240)) =
      (.inside 3 (if n = 0 then 0x90 else 0x80) (if n = 4 then 0x8F else 0xBF) n, []) := by
  have hcases : n = 0 ∨ n = 1 ∨ n = 2 ∨ n = 3 ∨ n = 4 := by omega
  rcases hcases with rfl | rfl | rfl | rfl | rfl <;> rfl

namespace Reading

theorem feed_lead
    {b : UInt8}
    {stage : Stage}
    (units : List (Option Char))
    (hlead : lead b = (stage, [])) :
    feed ⟨.between, units⟩ b = ⟨stage, units⟩ := by
  simp [feed, step, hlead]

/-- A byte that may come next inside a character goes into its value. -/
theorem feed_inside
    {owed value n : Nat}
    {low high : UInt8}
    (units : List (Option Char))
    (hlow : low.toNat ≤ n % 64 + 128)
    (hhigh : n % 64 + 128 ≤ high.toNat) :
    feed ⟨.inside owed low high value, units⟩ (UInt8.ofNat (n % 64 + 128)) =
      if owed ≤ 1 then ⟨.between, some (Char.ofNat (value * 64 + n % 64)) :: units⟩
      else ⟨.inside (owed - 1) 0x80 0xBF (value * 64 + n % 64), units⟩ := by
  have hbyte : (UInt8.ofNat (n % 64 + 128)).toNat = n % 64 + 128 :=
    UInt8.toNat_ofNat_of_lt' (show n % 64 + 128 < 256 by omega)
  have hwithin :
      (low ≤ UInt8.ofNat (n % 64 + 128) && UInt8.ofNat (n % 64 + 128) ≤ high) = true := by
    rw [Bool.and_eq_true, decide_eq_true_eq, decide_eq_true_eq, UInt8.le_iff_toNat_le,
      UInt8.le_iff_toNat_le, hbyte]
    exact ⟨hlow, hhigh⟩
  rw [feed, step, if_pos hwithin, hbyte]
  by_cases howed : owed ≤ 1 <;> simp [howed]

/-- The wide bounds admit every byte that can go on with a character. -/
theorem feed_inside_wide
    {owed value : Nat}
    (n : Nat)
    (units : List (Option Char)) :
    feed ⟨.inside owed 0x80 0xBF value, units⟩ (UInt8.ofNat (n % 64 + 128)) =
      if owed ≤ 1 then ⟨.between, some (Char.ofNat (value * 64 + n % 64)) :: units⟩
      else ⟨.inside (owed - 1) 0x80 0xBF (value * 64 + n % 64), units⟩ := by
  have hlow : (0x80 : UInt8).toNat ≤ n % 64 + 128 := Nat.le_add_left 128 (n % 64)
  have hhigh : n % 64 + 128 ≤ (0xBF : UInt8).toNat := by
    show n % 64 + 128 ≤ 191
    omega
  exact feed_inside units hlow hhigh

/-- The bytes of a character are read as that character. -/
theorem foldl_feed_encodeChar
    (c : Char)
    (units : List (Option Char)) :
    (String.utf8EncodeChar c).foldl feed ⟨.between, units⟩ = ⟨.between, some c :: units⟩ := by
  have hback : Char.ofNat c.val.toNat = c := Char.ofNat_toNat c
  have hvalid : c.val.toNat < 0xD800 ∨ 0xDFFF < c.val.toNat ∧ c.val.toNat < 0x110000 := c.valid
  simp only [String.utf8EncodeChar]
  generalize c.val.toNat = v at hback hvalid
  split
  · have hone : v < 0x80 := by omega
    have hbyte : (UInt8.ofNat v).toNat = v :=
      UInt8.toNat_ofNat_of_lt' (show v < 256 by omega)
    simp [feed, step, lead, hbyte, hone, hback]
  · split
    · have hvalue : v / 64 % 32 * 64 + v % 64 = v := by omega
      rw [List.foldl_cons, feed_lead units (lead_two (by omega) (by omega)),
        List.foldl_cons, feed_inside_wide, if_pos (by omega), hvalue, hback, List.foldl_nil]
    · split
      · have hlow :
            (if v / 4096 % 16 = 0 then (0xA0 : UInt8) else 0x80).toNat ≤ v / 64 % 64 + 128 := by
          split
          · show 160 ≤ v / 64 % 64 + 128
            omega
          · show 128 ≤ v / 64 % 64 + 128
            omega
        have hhigh :
            v / 64 % 64 + 128 ≤ (if v / 4096 % 16 = 13 then (0x9F : UInt8) else 0xBF).toNat := by
          split
          · show v / 64 % 64 + 128 ≤ 159
            omega
          · show v / 64 % 64 + 128 ≤ 191
            omega
        have hvalue : (v / 4096 % 16 * 64 + v / 64 % 64) * 64 + v % 64 = v := by omega
        rw [List.foldl_cons, feed_lead units (lead_three (by omega)),
          List.foldl_cons, feed_inside units hlow hhigh, if_neg (by omega),
          List.foldl_cons, feed_inside_wide, if_pos (by omega), hvalue, hback, List.foldl_nil]
      · have hlow :
            (if v / 262144 % 8 = 0 then (0x90 : UInt8) else 0x80).toNat ≤
              v / 4096 % 64 + 128 := by
          split
          · show 144 ≤ v / 4096 % 64 + 128
            omega
          · show 128 ≤ v / 4096 % 64 + 128
            omega
        have hhigh :
            v / 4096 % 64 + 128 ≤
              (if v / 262144 % 8 = 4 then (0x8F : UInt8) else 0xBF).toNat := by
          split
          · show v / 4096 % 64 + 128 ≤ 143
            omega
          · show v / 4096 % 64 + 128 ≤ 191
            omega
        have hvalue :
            ((v / 262144 % 8 * 64 + v / 4096 % 64) * 64 + v / 64 % 64) * 64 + v % 64 = v := by
          omega
        rw [List.foldl_cons, feed_lead units (lead_four (by omega)),
          List.foldl_cons, feed_inside units hlow hhigh, if_neg (by omega),
          List.foldl_cons, feed_inside_wide, if_neg (by omega),
          List.foldl_cons, feed_inside_wide, if_pos (by omega), hvalue, hback, List.foldl_nil]

theorem foldl_feed_flatMap
    (cs : List Char)
    (units : List (Option Char)) :
    (cs.flatMap String.utf8EncodeChar).foldl feed ⟨.between, units⟩ =
      ⟨.between, (cs.map some).reverse ++ units⟩ := by
  induction cs generalizing units with
  | nil => rfl
  | cons c cs ih =>
    rw [List.flatMap_cons, List.foldl_append, foldl_feed_encodeChar, ih]
    simp

end Reading

/-- Reading gives back the characters that were written. -/
@[simp] theorem units_encode
    (s : String) :
    units (encode s) = s.toList.map some := by
  rw [units, encode, Reading.foldl_feed_flatMap]
  simp [Reading.finish]

@[simp] theorem decodeLossy_encode
    (s : String) :
    decodeLossy (encode s) = s := by
  simp [decodeLossy, Function.comp_def]

@[simp] theorem decode?_encode
    (s : String) :
    decode? (encode s) = some s := by
  have hall : s.toList.mapM some = some s.toList := by
    induction s.toList with
    | nil => rfl
    | cons c cs ih => simp [List.mapM_cons, ih]
  simp [decode?, hall]

end Utf8
end PimDav
