import PimDav.Http.Field
import PimDav.Proofs.Text.Words
import PimDav.Text.Utf8.RoundTrip

/-!
# Values that list something

A value may list something in pieces between commas.  Joined with commas, pieces are found
again as they were put in, and a value of readable characters is read back as it was written.
-/

namespace PimDav
namespace Text

section Pieces

variable {α : Type}

/-- No piece holds the separator. -/
theorem not_mem_of_mem_splitOn
    [BEq α]
    [LawfulBEq α]
    {sep : α}
    {l piece : List α}
    (hpiece : piece ∈ l.splitOn sep) :
    sep ∉ piece := by
  induction l generalizing piece with
  | nil =>
    rw [List.splitOn_nil, List.mem_singleton] at hpiece
    rw [hpiece]
    exact List.not_mem_nil
  | cons a l ih =>
    rw [List.splitOn_cons_eq_if_modifyHead] at hpiece
    cases ha : a == sep with
    | true =>
      rw [ha, if_pos rfl] at hpiece
      rcases List.mem_cons.1 hpiece with rfl | hpiece
      · exact List.not_mem_nil
      · exact ih hpiece
    | false =>
      obtain ⟨first, others, hl⟩ := List.exists_cons_of_ne_nil (List.splitOn_ne_nil sep l)
      rw [ha, if_neg Bool.false_ne_true, hl, List.modifyHead_cons] at hpiece
      rw [hl] at ih
      rcases List.mem_cons.1 hpiece with rfl | hpiece
      · rw [List.mem_cons, not_or]
        exact ⟨(ne_of_beq_false ha).symm, ih List.mem_cons_self⟩
      · exact ih (List.mem_cons_of_mem first hpiece)

/-- Parts that are joined with a separator are taken apart one by one. -/
theorem splitOn_intercalate_eq_flatMap
    [BEq α]
    [ReflBEq α]
    (sep : α)
    {parts : List (List α)}
    (hparts : parts ≠ []) :
    ([sep].intercalate parts).splitOn sep = parts.flatMap (List.splitOn sep) := by
  induction parts with
  | nil => exact absurd rfl hparts
  | cons part parts ih =>
    by_cases hlast : parts = []
    · rw [hlast, List.intercalate_singleton, List.flatMap_singleton]
    · rw [List.intercalate_cons_of_ne_nil hlast, List.append_assoc, List.singleton_append,
        List.splitOn_append_cons_self, ih hlast, List.flatMap_cons]

/-- What shows stays, when it stands between blanks. -/
theorem trimWhere_append
    {p : α → Bool}
    {before shown after : List α}
    (hbefore : ∀ a ∈ before, p a = true)
    (hshown : ∀ a ∈ shown, p a = false)
    (hafter : ∀ a ∈ after, p a = true) :
    trimWhere p (before ++ shown ++ after) = shown := by
  rw [trimWhere_between hbefore hafter]
  exact trimWhere_eq_self (fun a ha => hshown a (List.mem_of_mem_head? ha))
    fun a ha => hshown a (List.mem_of_mem_getLast? ha)

end Pieces

/-- The pieces of values that are joined with commas. -/
theorem commaPieces_intercalate
    {values : List String}
    (hvalues : values ≠ []) :
    commaPieces (",".intercalate values) = values.flatMap commaPieces := by
  have hparts : values.map String.toList ≠ [] := by simpa using hvalues
  have hcomma : ",".toList = [','] := rfl
  rw [commaPieces, String.toList_intercalate, hcomma, splitOn_intercalate_eq_flatMap _ hparts,
    List.flatMap_map, List.map_flatMap]
  rfl

/-- Pieces without a comma are found again as they were joined. -/
theorem commaPieces_joined
    {values : List String}
    (hvalues : values ≠ [])
    (hcommas : ∀ value ∈ values, ∀ c ∈ value.toList, (c == ',') = false) :
    commaPieces (",".intercalate values) = values := by
  have hparts : values.map String.toList ≠ [] := by simpa using hvalues
  have hcomma : ",".toList = [','] := rfl
  rw [commaPieces, String.toList_intercalate, hcomma, List.splitOn_intercalate _ _ hparts,
    List.map_map, String.ofList_comp_toList, List.map_id]
  rw [List.forall_mem_map]
  intro value hvalue hmem
  cases hcommas value hvalue ',' hmem

/-- A text consists of its pieces, and they are as long as they can be. -/
theorem commaPieces_spec
    (s : String) :
    ",".intercalate (commaPieces s) = s ∧ commaPieces s ≠ [] ∧
      ∀ piece ∈ commaPieces s, ∀ c ∈ piece.toList, (c == ',') = false := by
  refine ⟨?_, ?_, ?_⟩
  · have hcomma : ",".toList = [','] := rfl
    have hpieces : (commaPieces s).map String.toList = s.toList.splitOn ',' := by
      simp [commaPieces]
    rw [← String.toList_inj, String.toList_intercalate, hcomma, hpieces,
      List.intercalate_splitOn]
  · rw [commaPieces, Ne, List.map_eq_nil_iff]
    exact List.splitOn_ne_nil _ _
  · intro piece hpiece c hc
    obtain ⟨cs, hcs, rfl⟩ := List.mem_map.1 hpiece
    rw [String.toList_ofList] at hc
    rw [beq_eq_false_iff_ne]
    rintro rfl
    exact not_mem_of_mem_splitOn hcs hc

/-- What holds of the separator and of every part holds of the whole. -/
theorem forall_mem_intercalate
    {P : Char → Prop}
    {sep : String}
    {values : List String}
    (hsep : ∀ c ∈ sep.toList, P c)
    (hvalues : ∀ value ∈ values, ∀ c ∈ value.toList, P c) :
    ∀ c ∈ (sep.intercalate values).toList, P c := by
  induction values with
  | nil => simp
  | cons value values ih =>
    obtain ⟨hvalue, hrest⟩ := List.forall_mem_cons.1 hvalues
    by_cases hlast : values = []
    · rwa [hlast, String.intercalate_singleton]
    · intro c hc
      rw [String.intercalate_cons_of_ne_nil hlast, String.toList_append, String.toList_append,
        List.mem_append, List.mem_append] at hc
      obtain (hc | hc) | hc := hc
      · exact hvalue c hc
      · exact hsep c hc
      · exact ih hrest c hc

/-- The characters of which a readable value consists. -/
def isReadable (c : Char) : Bool :=
  (0x20 ≤ c.toNat && c.toNat ≤ 0x7E) || c.toNat == 0x09

end Text

namespace Http
namespace Field

/-- A readable character travels as one byte. -/
theorem utf8EncodeChar_of_isReadable
    {c : Char}
    (hc : Text.isReadable c = true) :
    ∃ b, String.utf8EncodeChar c = [b] ∧ isReadableByte b = true ∧ Char.ofNat b.toNat = c := by
  simp only [Text.isReadable, Bool.or_eq_true, Bool.and_eq_true, decide_eq_true_eq,
    beq_iff_eq] at hc
  have hsmall : c.toNat ≤ 0x7F := by omega
  have hnat : (UInt8.ofNat c.toNat).toNat = c.toNat :=
    UInt8.toNat_ofNat_of_lt' (hsmall.trans_lt (by decide))
  refine ⟨UInt8.ofNat c.toNat, ?_, ?_, ?_⟩
  · rw [String.utf8EncodeChar]
    exact if_pos hsmall
  · simp only [isReadableByte, Bool.or_eq_true, Bool.and_eq_true, decide_eq_true_eq, beq_iff_eq,
      UInt8.le_iff_toNat_le, ← UInt8.toNat_inj, hnat]
    exact hc
  · rw [hnat, Char.ofNat_toNat]

/-- A value of readable characters is read as it was written. -/
theorem text?_ofText
    {value : String}
    (hvalue : ∀ c ∈ value.toList, Text.isReadable c = true)
    (name : String) :
    (ofText name value).text? = some value := by
  have hback : (Utf8.encode value).all isReadableByte = true ∧
      (Utf8.encode value).map (fun b => Char.ofNat b.toNat) = value.toList := by
    rw [Utf8.encode]
    generalize value.toList = cs at hvalue ⊢
    induction cs with
    | nil => exact ⟨rfl, rfl⟩
    | cons c cs ih =>
      obtain ⟨hc, hcs⟩ := List.forall_mem_cons.1 hvalue
      obtain ⟨b, hb, hreadable, hchar⟩ := utf8EncodeChar_of_isReadable hc
      obtain ⟨hall, hmap⟩ := ih hcs
      rw [List.flatMap_cons, hb, List.singleton_append]
      exact ⟨by rw [List.all_cons, hreadable, hall]; rfl, by rw [List.map_cons, hchar, hmap]⟩
  rw [text?, ofText, if_pos hback.1, hback.2, String.ofList_toList]

end Field
end Http
end PimDav
