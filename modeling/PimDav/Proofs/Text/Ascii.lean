import PimDav.Text.Utf8.RoundTrip

/-!
# ASCII inside encoded text

The bytes of a character above ASCII are all above ASCII.  So a byte below 128
occurs in an encoded text only where its own character stands, and whoever
looks for markup among bytes finds it exactly where the characters have it.
-/

namespace PimDav
namespace Utf8

/-- The bytes of characters, one after another. -/
def encodeChars (cs : List Char) : Bytes :=
  cs.flatMap String.utf8EncodeChar

@[simp] theorem encodeChars_toList
    (s : String) :
    encodeChars s.toList = encode s := by
  rfl

@[simp] theorem encode_ofList
    (cs : List Char) :
    encode (String.ofList cs) = encodeChars cs := by
  simp [encode, encodeChars]

@[simp] theorem encodeChars_nil :
    encodeChars [] = [] := by
  rfl

@[simp] theorem encodeChars_append
    (cs ds : List Char) :
    encodeChars (cs ++ ds) = encodeChars cs ++ encodeChars ds := by
  simp [encodeChars]

theorem encodeChars_cons
    (c : Char)
    (cs : List Char) :
    encodeChars (c :: cs) = encodeChars [c] ++ encodeChars cs := by
  simp [encodeChars]

theorem encodeChars_ne_nil
    {cs : List Char}
    (hcs : cs ≠ []) :
    encodeChars cs ≠ [] := by
  cases cs with
  | nil => exact absurd rfl hcs
  | cons c cs =>
    rw [encodeChars, List.flatMap_cons]
    exact List.append_ne_nil_of_left_ne_nil String.utf8EncodeChar_ne_nil _

@[simp] theorem decodeLossy_encodeChars
    (cs : List Char) :
    decodeLossy (encodeChars cs) = String.ofList cs := by
  rw [← encode_ofList, decodeLossy_encode]

/-- An ASCII byte among the bytes of a character is that character. -/
theorem eq_ofNat_of_mem_utf8EncodeChar
    {c : Char}
    {b : UInt8}
    (hmem : b ∈ String.utf8EncodeChar c)
    (hascii : b.toNat < 0x80) :
    c = Char.ofNat b.toNat := by
  have hback : Char.ofNat c.val.toNat = c := Char.ofNat_toNat c
  simp only [String.utf8EncodeChar] at hmem
  generalize c.val.toNat = v at hback hmem
  -- Only the shortest of the four forms has a byte below 128 at all.
  have hhigh : ∀ n : Nat, 128 ≤ n → n < 256 → b ≠ UInt8.ofNat n := by
    rintro n hlow hn rfl
    rw [UInt8.toNat_ofNat_of_lt' hn] at hascii
    omega
  split at hmem
  · have hbyte : b.toNat = v := by
      rw [List.mem_singleton.1 hmem]
      exact UInt8.toNat_ofNat_of_lt' (show v < 256 by omega)
    rw [hbyte, hback]
  · exfalso
    split at hmem
    · simp only [List.mem_cons, List.not_mem_nil, or_false] at hmem
      rcases hmem with hb | hb <;> exact hhigh _ (by omega) (by omega) hb
    · split at hmem
      · simp only [List.mem_cons, List.not_mem_nil, or_false] at hmem
        rcases hmem with hb | hb | hb <;> exact hhigh _ (by omega) (by omega) hb
      · simp only [List.mem_cons, List.not_mem_nil, or_false] at hmem
        rcases hmem with hb | hb | hb | hb <;> exact hhigh _ (by omega) (by omega) hb

/-- An ASCII byte of an encoded text stands for its own character. -/
theorem ofNat_mem_of_mem_encodeChars
    {cs : List Char}
    {b : UInt8}
    (hmem : b ∈ encodeChars cs)
    (hascii : b.toNat < 0x80) :
    Char.ofNat b.toNat ∈ cs := by
  obtain ⟨c, hc, hb⟩ := List.mem_flatMap.1 hmem
  rw [← eq_ofNat_of_mem_utf8EncodeChar hb hascii]
  exact hc

/-- A text without an ASCII character has no byte of it. -/
theorem not_mem_encodeChars
    {cs : List Char}
    {b : UInt8}
    (hascii : b.toNat < 0x80)
    (habsent : Char.ofNat b.toNat ∉ cs) :
    b ∉ encodeChars cs := by
  intro hmem
  exact habsent (ofNat_mem_of_mem_encodeChars hmem hascii)

/-- An ASCII character is encoded as its byte. -/
theorem utf8EncodeChar_ofNat
    {b : UInt8}
    (hascii : b.toNat < 0x80) :
    String.utf8EncodeChar (Char.ofNat b.toNat) = [b] := by
  have hvalid : b.toNat.isValidChar := Or.inl (by omega)
  have hcode : (Char.ofNat b.toNat).toNat = b.toNat := by
    rw [Char.ofNat, dif_pos hvalid]
    rfl
  have hsmall : (Char.ofNat b.toNat).toNat ≤ 0x7F := by omega
  have hbyte : UInt8.ofNat (Char.ofNat b.toNat).toNat = b := by
    rw [hcode, UInt8.ofNat_toNat]
  rw [String.utf8EncodeChar]
  exact (if_pos hsmall).trans (congrArg (fun x => [x]) hbyte)

/-- An ASCII byte of an encoded text splits the text at its own character. -/
theorem exists_of_encodeChars_eq_append
    {cs : List Char}
    {before after : Bytes}
    {b : UInt8}
    (hascii : b.toNat < 0x80)
    (hbytes : encodeChars cs = before ++ b :: after) :
    ∃ front rest, cs = front ++ Char.ofNat b.toNat :: rest ∧
      encodeChars front = before ∧ encodeChars rest = after := by
  induction cs generalizing before with
  | nil =>
    rw [encodeChars_nil] at hbytes
    exact absurd hbytes.symm (by simp)
  | cons c cs ih =>
    have hfirst : encodeChars (c :: cs) = String.utf8EncodeChar c ++ encodeChars cs := rfl
    rw [hfirst, List.append_eq_append_iff] at hbytes
    obtain ⟨more, rfl, hrest⟩ | ⟨more, hmore, hrest⟩ := hbytes
    · obtain ⟨front, rest, rfl, rfl, hafter⟩ := ih hrest
      exact ⟨c :: front, rest, rfl, rfl, hafter⟩
    · cases more with
      | nil =>
        rw [List.append_nil] at hmore
        have hcs : encodeChars cs = [] ++ b :: after := hrest.symm
        obtain ⟨front, rest, rfl, hfront, hafter⟩ := ih hcs
        refine ⟨c :: front, rest, rfl, ?_, hafter⟩
        rw [encodeChars_cons, hfront, List.append_nil, ← hmore]
        simp [encodeChars]
      | cons x more =>
        obtain ⟨rfl, rfl⟩ := List.cons_eq_cons.1 hrest
        -- The byte belongs to the first character and so is all of it.
        have hchar : c = Char.ofNat b.toNat :=
          eq_ofNat_of_mem_utf8EncodeChar (by simp [hmore]) hascii
        rw [hchar, utf8EncodeChar_ofNat hascii] at hmore
        obtain ⟨rfl, hmore⟩ | ⟨more', -, hmore⟩ := List.append_eq_cons_iff.1 hmore.symm
        · obtain ⟨-, rfl⟩ := List.cons_eq_cons.1 hmore
          exact ⟨[], cs, by rw [hchar]; rfl, rfl, rfl⟩
        · exact absurd hmore.symm (by simp)

theorem exists_of_encodeChars_eq_cons
    {cs : List Char}
    {after : Bytes}
    {b : UInt8}
    (hascii : b.toNat < 0x80)
    (hbytes : encodeChars cs = b :: after) :
    ∃ rest, cs = Char.ofNat b.toNat :: rest ∧ encodeChars rest = after := by
  rw [← List.nil_append (b :: after)] at hbytes
  obtain ⟨front, rest, rfl, hfront, hafter⟩ := exists_of_encodeChars_eq_append hascii hbytes
  cases front with
  | nil => exact ⟨rest, rfl, hafter⟩
  | cons c front => exact absurd hfront (encodeChars_ne_nil (List.cons_ne_nil c front))

end Utf8
end PimDav
