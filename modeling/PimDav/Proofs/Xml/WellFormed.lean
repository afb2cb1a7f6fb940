import PimDav.Proofs.Text.Ascii
import PimDav.Xml.Binding

/-!
# Well-formed elements

An element is well-formed when its names and keys are names that markup cannot
misread, and when its declarations of namespaces are ones that a reader
accepts.  Texts and values are free.
-/

namespace PimDav
namespace Xml

/-- The characters that have no place in a name: ASCII blanks, and those that
markup takes for its own. -/
def isReserved (c : Char) : Bool :=
  [' ', '\t', '\n', '\x0c', '\r', '<', '>', '/', '=', '&', '\x22', '\x27'].contains c

def isName (s : String) : Bool :=
  !s.isEmpty && s.toList.all fun c => !isReserved c

namespace RawAttribute

/-- An attribute as it is written between its blank and its last quote. -/
def written (a : String × String) : RawAttribute :=
  ⟨Utf8.encode a.1, Utf8.encode (escape a.2)⟩

end RawAttribute

namespace Tag

/-- Whether the name and the keys are names, the name does not begin like other
markup, and every declaration of a namespace is acceptable. -/
def isWellFormed (tag : Tag) : Bool :=
  isName tag.name && !Text.beginsWith "!" tag.name && !Text.beginsWith "?" tag.name &&
    tag.attributes.all fun a =>
      isName a.1 && (Binding.ofAttribute (.written a)).isSome

end Tag

namespace Content

/-- Whether all tags at any depth are well-formed. -/
def isWellFormed : Content → Bool
  | nothing => true
  | text _ after => isWellFormed after
  | element tag inside after => tag.isWellFormed && isWellFormed inside && isWellFormed after

end Content

namespace Element

def isWellFormed (e : Element) : Bool :=
  e.tag.isWellFormed && e.content.isWellFormed

end Element

namespace Content

@[simp] theorem isWellFormed_addText
    (s : String)
    (c : Content) :
    (c.addText s).isWellFormed = c.isWellFormed := by
  fun_induction addText s c <;> simp_all [isWellFormed]

@[simp] theorem isWellFormed_addElement
    (e : Element)
    (c : Content) :
    (c.addElement e).isWellFormed = (c.isWellFormed && e.isWellFormed) := by
  induction c with
  | nothing => simp [addElement, isWellFormed, Element.isWellFormed]
  | text v after ih => exact ih
  | element tag inside after _ ih =>
    rw [addElement, isWellFormed, ih, isWellFormed, Bool.and_assoc _ after.isWellFormed]

end Content

namespace Element

@[simp] theorem isWellFormed_text
    (e : Element)
    (s : String) :
    (e.text s).isWellFormed = e.isWellFormed := by
  simp [text, isWellFormed]

@[simp] theorem isWellFormed_child
    (e added : Element) :
    (e.child added).isWellFormed = (e.isWellFormed && added.isWellFormed) := by
  rw [child, isWellFormed, Content.isWellFormed_addElement, ← Bool.and_assoc]
  rfl

@[simp] theorem isWellFormed_children
    (e : Element)
    (added : List Element) :
    (e.children added).isWellFormed = (e.isWellFormed && added.all (·.isWellFormed)) := by
  induction added generalizing e with
  | nil => simp [children]
  | cons d added ih =>
    have hrest := ih (e.child d)
    rw [isWellFormed_child, Bool.and_assoc] at hrest
    exact hrest

end Element

/-- A byte that neither ends a name nor begins a quoted value. -/
structure IsPlainByte (b : UInt8) : Prop where
  blank : Text.isMarkupBlank b = false
  slash : b ≠ 0x2F
  equals : b ≠ 0x3D
  bracket : b ≠ 0x3E
  quote : b ≠ 0x22
  apostrophe : b ≠ 0x27

/-- No reserved character is among the bytes of a name. -/
theorem not_mem_encode_of_isName
    {s : String}
    (hname : isName s = true)
    {b : UInt8}
    (hascii : b.toNat < 0x80)
    (hreserved : isReserved (Char.ofNat b.toNat) = true) :
    b ∉ Utf8.encode s := by
  apply Utf8.not_mem_encodeChars hascii
  intro hmem
  have hall : s.toList.all (fun c => !isReserved c) = true := (Bool.and_eq_true_iff.1 hname).2
  have hfree := List.all_eq_true.1 hall _ hmem
  rw [hreserved] at hfree
  cases hfree

theorem isPlainByte_of_mem_name
    {s : String}
    (hname : isName s = true)
    {b : UInt8}
    (hb : b ∈ Utf8.encode s) :
    IsPlainByte b := by
  have hne : ∀ x : UInt8, x.toNat < 0x80 → isReserved (Char.ofNat x.toNat) = true → b ≠ x := by
    rintro x hascii hreserved rfl
    exact not_mem_encode_of_isName hname hascii hreserved hb
  have hspace : b ≠ 0x20 := hne 0x20 (by decide) (by decide)
  have htab : b ≠ 0x09 := hne 0x09 (by decide) (by decide)
  have hfeed : b ≠ 0x0A := hne 0x0A (by decide) (by decide)
  have hreturn : b ≠ 0x0D := hne 0x0D (by decide) (by decide)
  exact {
    blank := by simp [Text.isMarkupBlank, hspace, htab, hfeed, hreturn]
    slash := hne 0x2F (by decide) (by decide)
    equals := hne 0x3D (by decide) (by decide)
    bracket := hne 0x3E (by decide) (by decide)
    quote := hne 0x22 (by decide) (by decide)
    apostrophe := hne 0x27 (by decide) (by decide) }

theorem encode_ne_nil_of_isName
    {s : String}
    (hname : isName s = true) :
    Utf8.encode s ≠ [] := by
  have hne : s ≠ "" := by
    rintro rfl
    cases hname
  exact Utf8.encodeChars_ne_nil fun hnil => hne (String.toList_eq_nil_iff.1 hnil)

namespace Tag

variable {tag : Tag}

theorem isName_name
    (hwf : tag.isWellFormed = true) :
    isName tag.name = true := by
  simp only [isWellFormed, Bool.and_eq_true] at hwf
  exact hwf.1.1.1

theorem isName_key
    (hwf : tag.isWellFormed = true)
    {a : String × String}
    (ha : a ∈ tag.attributes) :
    isName a.1 = true := by
  simp only [isWellFormed, Bool.and_eq_true, List.all_eq_true] at hwf
  exact (hwf.2 a ha).1

theorem isSome_ofAttribute
    (hwf : tag.isWellFormed = true)
    {a : String × String}
    (ha : a ∈ tag.attributes) :
    (Binding.ofAttribute (.written a)).isSome = true := by
  simp only [isWellFormed, Bool.and_eq_true, List.all_eq_true] at hwf
  exact (hwf.2 a ha).2

/-- The first byte of the name tells an element from other markup. -/
theorem encode_name_eq_cons
    (hwf : tag.isWellFormed = true) :
    ∃ b bytes, Utf8.encode tag.name = b :: bytes ∧ b ≠ 0x21 ∧ b ≠ 0x3F := by
  have hname := isName_name hwf
  simp only [isWellFormed, Bool.and_eq_true, Bool.not_eq_true'] at hwf
  obtain ⟨⟨⟨-, hbang⟩, hquestion⟩, -⟩ := hwf
  cases hcs : tag.name.toList with
  | nil =>
    have hnil : Utf8.encode tag.name = [] := by rw [Utf8.encode, hcs]; rfl
    exact absurd hnil (encode_ne_nil_of_isName hname)
  | cons c cs =>
    have hbytes : Utf8.encode tag.name = String.utf8EncodeChar c ++ Utf8.encodeChars cs := by
      rw [Utf8.encode, hcs]
      rfl
    cases hfirst : String.utf8EncodeChar c with
    | nil => exact absurd hfirst String.utf8EncodeChar_ne_nil
    | cons b more =>
      -- An ASCII first byte is the first character itself.
      have hchar : b.toNat < 0x80 → c = Char.ofNat b.toNat := by
        intro hascii
        exact Utf8.eq_ofNat_of_mem_utf8EncodeChar (by simp [hfirst]) hascii
      refine ⟨b, more ++ Utf8.encodeChars cs, by rw [hbytes, hfirst]; rfl, ?_, ?_⟩
      · rintro rfl
        rw [Text.beginsWith, hcs, hchar (by decide)] at hbang
        cases hbang
      · rintro rfl
        rw [Text.beginsWith, hcs, hchar (by decide)] at hquestion
        cases hquestion

end Tag
end Xml
end PimDav
