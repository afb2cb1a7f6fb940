import Mathlib.Data.List.Forall2
import PimDav.Proofs.Text.Words
import PimDav.Proofs.Xml.DeepElements
import PimDav.Xml.Writer

/-!
# What the indented form keeps

The indented form leaves out texts that are blank, trims the texts beside elements, and keeps the
text of an element without elements as it is.  What it keeps of an element is an element again.
It is written in the same way, its texts differ from those of the original in surrounding blanks
only, and the elements at any depth correspond one by one.
-/

namespace PimDav
namespace Xml
namespace Content

/-- The content without texts that are blank, the other texts trimmed. -/
def tidied : Content → Content
  | nothing => nothing
  | text v after =>
    let shown := Text.trim v
    if shown.isEmpty then tidied after else text shown (tidied after)
  | element tag inside after => element tag (tidied inside) (tidied after)

/-- Lines in place of a content with an element in it; blanks alone are nothing, and other texts
stay as they are. -/
def orLines (c lines : Content) : Content :=
  if c.isBlank then nothing else if c.isText then c else lines

/-- What is kept of nodes that are written on lines of their own. -/
def keptLines : Content → Content
  | nothing => nothing
  | text v after =>
    let shown := Text.trim v
    if shown.isEmpty then keptLines after else text shown (keptLines after)
  | element tag inside after => element tag (inside.orLines (keptLines inside)) (keptLines after)

/-- What is kept of the content of an element. -/
def kept (c : Content) : Content :=
  c.orLines c.keptLines

theorem orLines_cases
    {P : Content → Prop}
    {c lines : Content}
    (hblank : c.isBlank = true → P nothing)
    (htext : c.isBlank = false → c.isText = true → P c)
    (hlines : c.isBlank = false → c.isText = false → P lines) :
    P (c.orLines lines) := by
  rw [orLines]
  cases hcBlank : c.isBlank with
  | true => exact hblank hcBlank
  | false =>
    cases hcText : c.isText with
    | true => exact htext hcBlank hcText
    | false => exact hlines hcBlank hcText

theorem isText_of_isBlank
    {c : Content}
    (hc : c.isBlank = true) :
    c.isText = true := by
  induction c with
  | nothing => rfl
  | text v after ih =>
    rw [isBlank, Bool.and_eq_true] at hc
    exact ih hc.2
  | element tag inside after => cases hc

@[simp] theorem isBlank_keptLines
    (c : Content) :
    c.keptLines.isBlank = c.isBlank := by
  induction c with
  | nothing => rfl
  | text v after ih =>
    rw [keptLines, isBlank]
    cases hshown : (Text.trim v).isEmpty with
    | true => exact ih
    | false => simp [isBlank, hshown]
  | element tag inside after => rfl

@[simp] theorem isText_keptLines
    (c : Content) :
    c.keptLines.isText = c.isText := by
  induction c with
  | nothing => rfl
  | text v after ih =>
    rw [keptLines, isText]
    cases (Text.trim v).isEmpty with
    | true => exact ih
    | false => exact ih
  | element tag inside after => rfl

theorem tidied_of_isBlank
    {c : Content}
    (hc : c.isBlank = true) :
    c.tidied = nothing := by
  induction c with
  | nothing => rfl
  | text v after ih =>
    rw [isBlank, Bool.and_eq_true] at hc
    rw [tidied, if_pos hc.1, ih hc.2]
  | element tag inside after => cases hc

theorem deepElements_of_isText
    {c : Content}
    (hc : c.isText = true) :
    c.deepElements = [] := by
  induction c with
  | nothing => rfl
  | text v after ih => exact ih hc
  | element tag inside after => cases hc

theorem tidied_orLines
    {c lines : Content}
    (hlines : lines.tidied = c.tidied) :
    (c.orLines lines).tidied = c.tidied := by
  apply orLines_cases (P := fun d => d.tidied = c.tidied)
  · exact fun hblank => (tidied_of_isBlank hblank).symm
  · exact fun _ _ => rfl
  · exact fun _ _ => hlines

/-- The texts that are kept are those of the original up to surrounding blanks. -/
theorem tidied_keptLines
    (c : Content) :
    c.keptLines.tidied = c.tidied := by
  induction c with
  | nothing => rfl
  | text v after ih =>
    rw [keptLines, tidied]
    cases hshown : (Text.trim v).isEmpty with
    | true => exact ih
    | false => simp [tidied, hshown, ih]
  | element tag inside after ihInside ihAfter =>
    rw [keptLines, tidied, tidied_orLines ihInside, ihAfter, tidied]

/-- What is kept is written on the same lines as the original. -/
theorem writeLines_keptLines
    (depth : Nat)
    (c : Content)
    (rest : List Char) :
    c.keptLines.writeLines depth rest = c.writeLines depth rest := by
  induction c generalizing depth rest with
  | nothing => rfl
  | text v after ih =>
    rw [keptLines, writeLines]
    cases hshown : (Text.trim v).isEmpty with
    | true => exact ih depth rest
    | false => simp [writeLines, hshown, ih]
  | element tag inside after ihInside ihAfter =>
    apply orLines_cases (P := fun kept =>
      (element tag kept after.keptLines).writeLines depth rest =
        (element tag inside after).writeLines depth rest)
    · intro hblank
      simp [writeLines, hblank, isBlank, ihAfter]
    · intro hblank htext
      simp [writeLines, hblank, htext, ihAfter]
    · intro hblank htext
      simp [writeLines, hblank, htext, ihInside, ihAfter]

end Content

namespace Element

/-- The element with the texts that are not blank, trimmed. -/
def tidied (e : Element) : Element :=
  ⟨e.tag, e.content.tidied⟩

/-- What the indented form keeps of an element. -/
def kept (e : Element) : Element :=
  ⟨e.tag, e.content.kept⟩

theorem tidied_kept
    (e : Element) :
    e.kept.tidied = e.tidied :=
  congrArg (Element.mk e.tag) (Content.tidied_orLines (Content.tidied_keptLines e.content))

theorem indented_kept
    (e : Element) :
    e.kept.indented = e.indented := by
  have halone : e.kept.alone = e.alone.keptLines := rfl
  rw [indented, halone, Content.writeLines_keptLines, ← indented]

end Element

namespace Content

theorem deepElements_orLines
    {c lines : Content}
    (hlines : lines.deepElements = c.deepElements.map Element.kept) :
    (c.orLines lines).deepElements = c.deepElements.map Element.kept := by
  apply orLines_cases (P := fun d => d.deepElements = c.deepElements.map Element.kept)
  · intro hblank
    rw [deepElements_of_isText (isText_of_isBlank hblank)]
    rfl
  · intro _ htext
    rw [deepElements_of_isText htext, List.map_nil]
  · exact fun _ _ => hlines

/-- What is kept of the elements at any depth are the elements at any depth of what is kept. -/
theorem deepElements_keptLines
    (c : Content) :
    c.keptLines.deepElements = c.deepElements.map Element.kept := by
  induction c with
  | nothing => rfl
  | text v after ih =>
    rw [keptLines, deepElements]
    cases (Text.trim v).isEmpty with
    | true => exact ih
    | false => exact ih
  | element tag inside after ihInside ihAfter =>
    rw [keptLines, deepElements, deepElements_orLines ihInside, ihAfter, deepElements,
      List.map_cons, List.map_append]
    rfl

/-- What is kept of a text that is not blank is the text. -/
theorem eq_of_kept_eq
    {c d : Content}
    (hkept : c.kept = d)
    (htext : d.isText = true)
    (hblank : d.isBlank = false) :
    c = d := by
  revert hkept
  apply orLines_cases (P := fun kept => kept = d → c = d)
  · rintro - rfl
    cases hblank
  · exact fun _ _ => id
  · rintro - hlines rfl
    rw [isText_keptLines, hlines] at htext
    cases htext

@[simp] theorem isBlank_withoutSpaces
    (c : Content) :
    c.withoutSpaces.isBlank = c.isBlank := by
  induction c with
  | nothing => rfl
  | text v after ih => rw [withoutSpaces, isBlank, ih, isBlank]
  | element tag inside after => rfl

@[simp] theorem isText_withoutSpaces
    (c : Content) :
    c.withoutSpaces.isText = c.isText := by
  induction c with
  | nothing => rfl
  | text v after ih => exact ih
  | element tag inside after => rfl

theorem withoutSpaces_of_isText
    {c : Content}
    (hc : c.isText = true) :
    c.withoutSpaces = c := by
  induction c with
  | nothing => rfl
  | text v after ih => rw [withoutSpaces, ih hc]
  | element tag inside after => cases hc

theorem tidied_withoutSpaces
    (c : Content) :
    c.withoutSpaces.tidied = c.tidied.withoutSpaces := by
  induction c with
  | nothing => rfl
  | text v after ih =>
    rw [withoutSpaces, tidied, tidied, ih]
    cases (Text.trim v).isEmpty <;> rfl
  | element tag inside after ihInside ihAfter =>
    rw [withoutSpaces, tidied, ihInside, ihAfter, tidied, withoutSpaces]

theorem orLines_withoutSpaces
    (c lines : Content) :
    c.withoutSpaces.orLines lines.withoutSpaces = (c.orLines lines).withoutSpaces := by
  rw [orLines, isBlank_withoutSpaces, isText_withoutSpaces, orLines]
  cases c.isBlank with
  | true => rfl
  | false => cases c.isText <;> rfl

theorem keptLines_withoutSpaces
    (c : Content) :
    c.withoutSpaces.keptLines = c.keptLines.withoutSpaces := by
  induction c with
  | nothing => rfl
  | text v after ih =>
    rw [withoutSpaces, keptLines, keptLines, ih]
    cases (Text.trim v).isEmpty <;> rfl
  | element tag inside after ihInside ihAfter =>
    rw [withoutSpaces, keptLines, ihInside, orLines_withoutSpaces, ihAfter, keptLines,
      withoutSpaces]

theorem kept_withoutSpaces
    (c : Content) :
    c.withoutSpaces.kept = c.kept.withoutSpaces := by
  rw [kept, keptLines_withoutSpaces, orLines_withoutSpaces, kept]

/-- What is known about namespaces is not written. -/
theorem writeLines_withoutSpaces
    (depth : Nat)
    (c : Content)
    (rest : List Char) :
    c.withoutSpaces.writeLines depth rest = c.writeLines depth rest := by
  induction c generalizing depth rest with
  | nothing => rfl
  | text v after ih =>
    rw [withoutSpaces, writeLines, ih, writeLines]
  | element tag inside after ihInside ihAfter =>
    have htag : tag.withoutSpace.writeOpening = tag.writeOpening ∧
        tag.withoutSpace.writeClosing = tag.writeClosing := ⟨rfl, rfl⟩
    rw [withoutSpaces, writeLines, writeLines, isBlank_withoutSpaces, isText_withoutSpaces,
      characters_withoutSpaces, ihAfter, ihInside, htag.1, htag.2]

end Content

namespace Element

theorem deepElements_kept
    (e : Element) :
    e.kept.deepElements = e.deepElements.map kept :=
  Content.deepElements_orLines (Content.deepElements_keptLines e.content)

theorem tidied_withoutSpaces
    (e : Element) :
    e.withoutSpaces.tidied = e.tidied.withoutSpaces :=
  congrArg (Element.mk e.tag.withoutSpace) (Content.tidied_withoutSpaces e.content)

theorem kept_withoutSpaces
    (e : Element) :
    e.withoutSpaces.kept = e.kept.withoutSpaces :=
  congrArg (Element.mk e.tag.withoutSpace) (Content.kept_withoutSpaces e.content)

theorem indented_withoutSpaces
    (e : Element) :
    e.withoutSpaces.indented = e.indented := by
  have halone : e.withoutSpaces.alone = e.alone.withoutSpaces := rfl
  rw [indented, halone, Content.writeLines_withoutSpaces, ← indented]

/-- Whether an element that was read has the tag of another one, and its text as it was, when
there is no element inside and the text is not blank. -/
structure KeepsText (e read : Element) : Prop where
  tag : read.tag.withoutSpace = e.tag
  text : e.content.isText = true → e.content.isBlank = false → read.content = e.content

theorem keepsText_of_kept_eq
    {e read : Element}
    (hkept : read.kept.withoutSpaces = e.kept) :
    KeepsText e read where
  tag := congrArg Element.tag hkept
  text htext hblank := by
    have hcontent : read.content.withoutSpaces.kept = e.content.kept := by
      rw [Content.kept_withoutSpaces]
      exact congrArg Element.content hkept
    have hself : e.content.kept = e.content := by
      rw [Content.kept, Content.orLines, hblank, htext]
      rfl
    have hread := Content.eq_of_kept_eq (hcontent.trans hself) htext hblank
    have htextRead : read.content.isText = true := by
      rw [← Content.isText_withoutSpaces, hread, htext]
    rw [← Content.withoutSpaces_of_isText htextRead, hread]

/-- An element of which the same is kept as of another one has the same texts up to surrounding
blanks, the same elements with the same texts of their own, and the same indented form. -/
theorem of_kept_eq
    {e read : Element}
    (hkept : read.kept.withoutSpaces = e.kept) :
    read.tidied.withoutSpaces = e.tidied ∧
      List.Forall₂ KeepsText (e :: e.deepElements) (read :: read.deepElements) ∧
      read.indented = e.indented := by
  have hdeep : List.Forall₂ (fun d q => q.kept.withoutSpaces = d.kept) (e :: e.deepElements)
      (read :: read.deepElements) := by
    refine .cons hkept ?_
    have hbelow := congrArg deepElements hkept
    rw [deepElements_withoutSpaces, deepElements_kept, deepElements_kept, List.map_map,
      ← List.forall₂_eq_eq_eq, List.forall₂_map_left_iff, List.forall₂_map_right_iff] at hbelow
    exact hbelow.flip
  refine ⟨?_, hdeep.imp fun _ _ => keepsText_of_kept_eq, ?_⟩
  · rw [← tidied_kept, ← tidied_withoutSpaces, hkept, tidied_kept]
  · rw [← indented_kept, ← indented_withoutSpaces, hkept, indented_kept]

end Element
end Xml
end PimDav
