import PimDav.Http.Coding
import PimDav.Proofs.Text.Pieces

/-!
# Lists folded into fields

A field that lists something may be folded: several fields of its name may be joined to one,
their values with commas between them, and a field may be split into several at any of its
commas.  A server or a proxy may do either, and what is listed stays the same.
-/

namespace PimDav
namespace Http
namespace Headers

/-- Whether `g` has one field in the place of several fields of `h`: its value consists of
theirs, with commas between them.  The other way round, `h` splits this field at some of
its commas.  The name may have more fields, readable or not, and so may other names. -/
def Folds
    (name : String)
    (values : List String)
    (h g : Headers) : Prop :=
  ∃ before after,
    h.all name = before ++ values.map (Field.ofText name) ++ after ∧
      g.all name = before ++ .ofText name (",".intercalate values) :: after

/-- Whether these lines are the readable values of a name, each cut at all its commas. -/
structure IsCut
    (h : Headers)
    (name : String)
    (lines : List (List String)) : Prop where
  whole : (h.all name).filterMap Field.text? = lines.map (",".intercalate ·)
  nonempty : ∀ line ∈ lines, line ≠ []
  commas : ∀ line ∈ lines, ∀ piece ∈ line, ∀ c ∈ piece.toList, (c == ',') = false

theorem isCut_commaPieces
    (h : Headers)
    (name : String) :
    h.IsCut name (((h.all name).filterMap Field.text?).map Text.commaPieces) where
  whole := by
    have hsame : ∀ s : String, ",".intercalate (Text.commaPieces s) = s := fun s =>
      (Text.commaPieces_spec s).1
    rw [List.map_map, Function.comp_def]
    simp only [hsame, List.map_id']
  nonempty := by
    rw [List.forall_mem_map]
    exact fun s _ => (Text.commaPieces_spec s).2.1
  commas := by
    rw [List.forall_mem_map]
    exact fun s _ => (Text.commaPieces_spec s).2.2

/-- There is only one way to cut values at all their commas. -/
theorem IsCut.eq_commaPieces
    {h : Headers}
    {name : String}
    {lines : List (List String)}
    (hcut : h.IsCut name lines) :
    lines = ((h.all name).filterMap Field.text?).map Text.commaPieces := by
  have hline : ∀ line ∈ lines, Text.commaPieces (",".intercalate line) = line := fun line hmem =>
    Text.commaPieces_joined (hcut.nonempty line hmem) (hcut.commas line hmem)
  rw [hcut.whole, List.map_map]
  symm
  exact (List.map_congr_left hline).trans (List.map_id' lines)

theorem IsCut.flatten_eq
    {h : Headers}
    {name : String}
    {lines : List (List String)}
    (hcut : h.IsCut name lines) :
    lines.flatten = h.pieces name := by
  rw [hcut.eq_commaPieces, pieces, List.flatMap_def]

/-- Values that are readable are read together as they are read one by one. -/
theorem filterMap_commaPieces_intercalate
    {β : Type}
    {read : String → Option β}
    (hread : read "" = none)
    (values : List String) :
    (Text.commaPieces (",".intercalate values)).filterMap read =
      (values.flatMap Text.commaPieces).filterMap read := by
  by_cases hnone : values = []
  · have hempty : Text.commaPieces (",".intercalate []) = [""] := by decide
    rw [hnone, hempty, List.filterMap_cons_none hread]
    rfl
  · rw [Text.commaPieces_intercalate hnone]

theorem filterMap_text?_ofText
    {values : List String}
    (hvalues : ∀ value ∈ values, ∀ c ∈ value.toList, Text.isReadable c = true)
    (name : String) :
    (values.map (Field.ofText name)).filterMap Field.text? = values := by
  induction values with
  | nil => rfl
  | cons value values ih =>
    obtain ⟨hvalue, hrest⟩ := List.forall_mem_cons.1 hvalues
    rw [List.map_cons, List.filterMap_cons_some (Field.text?_ofText hvalue name), ih hrest]

/-- Folding changes nothing for who reads the pieces one by one and skips empty ones. -/
theorem filterMap_pieces_of_folds
    {β : Type}
    {read : String → Option β}
    (hread : read "" = none)
    {name : String}
    {values : List String}
    (hvalues : ∀ value ∈ values, ∀ c ∈ value.toList, Text.isReadable c = true)
    {h g : Headers}
    (hfolds : Folds name values h g) :
    (g.pieces name).filterMap read = (h.pieces name).filterMap read := by
  obtain ⟨before, after, hmany, hone⟩ := hfolds
  have hjoined : (Field.ofText name (",".intercalate values)).text? =
      some (",".intercalate values) := by
    apply Field.text?_ofText
    exact Text.forall_mem_intercalate (List.all_eq_true.1 (by decide)) hvalues
  rw [pieces, pieces, hmany, hone, List.filterMap_append, List.filterMap_append,
    List.filterMap_append, List.filterMap_cons_some hjoined, filterMap_text?_ofText hvalues,
    List.flatMap_append, List.flatMap_append, List.flatMap_append, List.flatMap_cons,
    List.filterMap_append, List.filterMap_append, List.filterMap_append, List.filterMap_append,
    filterMap_commaPieces_intercalate hread, List.append_assoc]

theorem capabilities_eq
    (h : Headers) :
    h.capabilities = (h.pieces "dav").filterMap Text.trimmed? := by
  rw [capabilities, Text.filterMap_trimmed?]

/-- The fields about capabilities and about codings may be folded in any way: what they list
stays the same, whatever else is in the headers.  The capabilities are the trimmed pieces
that are not blank, of all readable values, in order and as often as they occur; and so
each of them is a text that begins and ends with something that shows, without a comma. -/
theorem lists_are_read_folded_or_not
    {values : List String}
    (hvalues : ∀ value ∈ values, ∀ c ∈ value.toList, Text.isReadable c = true)
    (h g : Headers) :
    (Folds "dav" values h g → g.capabilities = h.capabilities) ∧
      (Folds "content-encoding" values h g → g.codings = h.codings) ∧
      (∃ lines, (∀ others, h.IsCut "dav" others ↔ others = lines) ∧
        h.capabilities =
          (lines.flatten.filter fun piece => !piece.toList.all Text.isBlank).map Text.trim) ∧
      ∀ token ∈ h.capabilities,
        token ≠ "" ∧ Text.trim token = token ∧ ∀ c ∈ token.toList, (c == ',') = false := by
  have hcut := h.isCut_commaPieces "dav"
  refine ⟨?_, ?_, ⟨((h.all "dav").filterMap Field.text?).map Text.commaPieces, ?_, ?_⟩, ?_⟩
  · intro hfolds
    rw [capabilities_eq, capabilities_eq]
    exact filterMap_pieces_of_folds (by decide) hvalues hfolds
  · intro hfolds
    exact filterMap_pieces_of_folds (by decide) hvalues hfolds
  · intro others
    constructor
    · exact IsCut.eq_commaPieces
    · rintro rfl
      exact hcut
  · rw [hcut.flatten_eq, capabilities, List.filter_map]
    simp only [Function.comp_def, Text.isEmpty_trim]
  · intro token htoken
    rw [capabilities_eq, List.mem_filterMap] at htoken
    obtain ⟨piece, hpiece, htrimmed⟩ := htoken
    obtain ⟨rfl, hsome⟩ := Text.trimmed?_eq_some_iff.1 htrimmed
    refine ⟨hsome, Text.trim_trim piece, ?_⟩
    intro c hc
    rw [← hcut.flatten_eq, List.mem_flatten] at hpiece
    obtain ⟨line, hline, hpiece⟩ := hpiece
    obtain ⟨before, after, hwhole, -, -⟩ := Text.exists_trimWhere Text.isBlank piece.toList
    apply hcut.commas line hline piece hpiece
    rw [Text.toList_trim] at hc
    rw [hwhole]
    exact List.mem_append_left after (List.mem_append_right before hc)

/-- Doubled commas, commas at either end and a value of its own for nothing at all. -/
theorem lists_are_read_folded_or_not_thorny :
    let field := Field.ofText "dav"
    let h : Headers :=
      ⟨[field "1", field ",2,,\t3 ", .ofText "content-encoding" "gzip,", field "", field "1,",
        .ofText "content-encoding" "identity , BR", ⟨"dav", [0xC3, 0xA9]⟩]⟩
    let g : Headers :=
      ⟨[field "1", .ofText "content-encoding" "gzip,,identity , BR", field ",2,,\t3 ,,1,",
        ⟨"dav", [0xC3, 0xA9]⟩]⟩
    g.capabilities = ["1", "2", "3", "1"] ∧ h.capabilities = g.capabilities ∧
      h.codings = g.codings ∧ g.codings = [.gzip, .brotli] := by
  intro field h g
  have hdav : Folds "dav" [",2,,\t3 ", "", "1,"] h g :=
    ⟨[field "1"], [⟨"dav", [0xC3, 0xA9]⟩], by decide +kernel, by decide +kernel⟩
  have hcoded : Folds "content-encoding" ["gzip,", "identity , BR"] h g :=
    ⟨[], [], by decide +kernel, by decide +kernel⟩
  have hread : ∀ values : List String, values.all (·.toList.all Text.isReadable) = true →
      ∀ value ∈ values, ∀ c ∈ value.toList, Text.isReadable c = true := by
    intro values hall value hvalue
    exact List.all_eq_true.1 (List.all_eq_true.1 hall value hvalue)
  have hreadDav := hread [",2,,\t3 ", "", "1,"] (by decide +kernel)
  have hreadCoded := hread ["gzip,", "identity , BR"] (by decide +kernel)
  obtain ⟨hcapabilities, -⟩ := lists_are_read_folded_or_not hreadDav h g
  obtain ⟨-, hcodings, -⟩ := lists_are_read_folded_or_not hreadCoded h g
  exact ⟨by decide +kernel, (hcapabilities hdav).symm, (hcodings hcoded).symm, by decide +kernel⟩

end Headers
end Http
end PimDav
