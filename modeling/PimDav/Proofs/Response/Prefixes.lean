import Mathlib.Data.List.Forall2
import PimDav.Proofs.Response.Names
import PimDav.Proofs.Xml.DeepElements

/-!
# Prefixes do not matter

Servers choose the prefixes of names as they like.  Two elements that differ in prefixes and
namespaces alone have the same elements at the same places as far as searches go, and the same
is read of each pair of them.
-/

namespace PimDav
namespace Xml

/-- The local name has no prefix any more. -/
theorem localPart_localPart
    (name : String) :
    localPart (localPart name) = localPart name := by
  apply localPart_of_not_mem
  intro hcolon
  rw [localPart, String.toList_ofList, List.mem_reverse] at hcolon
  have hfree := List.all_eq_true.1 List.all_takeWhile ':' hcolon
  cases hfree

namespace Tag

/-- Two tags that differ in the prefixes of their names and in their namespaces alone. -/
structure Namesakes (tag other : Tag) : Prop where
  localName : tag.localName = other.localName
  attributes : tag.attributes = other.attributes

/-- The tag without the prefix of its name and without a namespace. -/
def unprefixed (tag : Tag) : Tag where
  name := tag.localName
  attributes := tag.attributes

theorem keepsNames_unprefixed :
    KeepsNames unprefixed where
  localName tag := localPart_localPart tag.name
  attributes _ := rfl

theorem Namesakes.unprefixed_eq
    {tag other : Tag}
    (h : Namesakes tag other) :
    tag.unprefixed = other.unprefixed := by
  rw [unprefixed, unprefixed, h.localName, h.attributes]

end Tag

/-- Two contents of one shape with the same texts, in which tags at the same place are
namesakes. -/
inductive Content.Namesakes : Content → Content → Prop
  | nothing : Namesakes nothing nothing
  | text
      (v : String)
      {after other : Content}
      (hafter : Namesakes after other) :
      Namesakes (text v after) (text v other)
  | element
      {tag otherTag : Tag}
      {inside otherInside after otherAfter : Content}
      (htag : tag.Namesakes otherTag)
      (hinside : Namesakes inside otherInside)
      (hafter : Namesakes after otherAfter) :
      Namesakes (element tag inside after) (element otherTag otherInside otherAfter)

theorem Content.Namesakes.retag_eq
    {c d : Content}
    (h : Namesakes c d) :
    c.retag Tag.unprefixed = d.retag Tag.unprefixed := by
  induction h with
  | nothing => rfl
  | text v _ ih => rw [retag, retag, ih]
  | element htag _ _ ihInside ihAfter =>
    rw [retag, retag, htag.unprefixed_eq, ihInside, ihAfter]

namespace Element

/-- Two elements that differ in the prefixes of names and in namespaces alone. -/
structure Namesakes (e other : Element) : Prop where
  tag : e.tag.Namesakes other.tag
  content : e.content.Namesakes other.content

/-- The elements at the same places of two elements, in document order. -/
def places (e other : Element) : List (Element × Element) :=
  e.deepElements.zip other.deepElements

variable {e other : Element}

theorem Namesakes.retag_eq
    (h : e.Namesakes other) :
    e.retag Tag.unprefixed = other.retag Tag.unprefixed := by
  rw [retag, retag, h.tag.unprefixed_eq, h.content.retag_eq]

/-- The elements at the same place differ in prefixes and namespaces alone, too. -/
theorem Namesakes.forall₂_deepElements
    (h : e.Namesakes other) :
    List.Forall₂ (fun d o : Element => d.retag Tag.unprefixed = o.retag Tag.unprefixed)
      e.deepElements other.deepElements := by
  have hsame : e.deepElements.map (retag Tag.unprefixed) =
      other.deepElements.map (retag Tag.unprefixed) := by
    rw [deepElements, deepElements, ← Content.deepElements_retag, h.content.retag_eq,
      Content.deepElements_retag]
  rwa [← List.forall₂_eq_eq_eq, List.forall₂_map_left_iff, List.forall₂_map_right_iff] at hsame

theorem Namesakes.retag_eq_of_mem_places
    (h : e.Namesakes other)
    {pair : Element × Element}
    (hpair : pair ∈ e.places other) :
    pair.1.retag Tag.unprefixed = pair.2.retag Tag.unprefixed :=
  List.forall₂_zip h.forall₂_deepElements hpair

/-- Every element of either has its place. -/
theorem Namesakes.map_places
    (h : e.Namesakes other) :
    (e.places other).map Prod.fst = e.deepElements ∧
      (e.places other).map Prod.snd = other.deepElements := by
  have hlength := h.forall₂_deepElements.length_eq
  exact ⟨List.map_fst_zip (Nat.le_of_eq hlength), List.map_snd_zip (Nat.le_of_eq hlength.symm)⟩

theorem is_of_retag_eq
    (h : e.retag Tag.unprefixed = other.retag Tag.unprefixed)
    (wanted : String) :
    e.is wanted = other.is wanted := by
  rw [← is_retag Tag.keepsNames_unprefixed, h, is_retag Tag.keepsNames_unprefixed]

/-- A search finds the elements at the same places in both. -/
theorem Namesakes.descendants_eq
    (h : e.Namesakes other)
    (wanted : String) :
    let found := (e.places other).filter (·.1.is wanted)
    e.descendants wanted = found.map Prod.fst ∧ other.descendants wanted = found.map Prod.snd := by
  intro found
  obtain ⟨hfirst, hsecond⟩ := h.map_places
  have hfound : found = (e.places other).filter (·.2.is wanted) := by
    apply List.filter_congr
    intro pair hpair
    exact is_of_retag_eq (h.retag_eq_of_mem_places hpair) wanted
  constructor
  · rw [descendants_eq_filter, ← hfirst, List.filter_map]
    rfl
  · rw [descendants_eq_filter, ← hsecond, List.filter_map, hfound]
    rfl

end Element
end Xml

open Xml (Element Tag)

namespace Response

/-- Two elements that differ in prefixes alone are read alike, as responses and as
notifications. -/
theorem readsAlike_of_retag_eq
    {e other : Element}
    (h : e.retag Tag.unprefixed = other.retag Tag.unprefixed) :
    ReadsAlike e other ∧
      ∀ href, Notification.ofElement other href = Notification.ofElement e href := by
  have hnames := Tag.keepsNames_unprefixed
  constructor
  · apply ReadsAlike.of_common (readsAlike_retag hnames e)
    rw [h]
    exact readsAlike_retag hnames other
  · intro href
    rw [← Notification.ofElement_retag hnames other, ← h, Notification.ofElement_retag hnames]

/-- What is found and read does not depend on prefixes and namespaces.  In two elements that
differ in these alone, every element has its place in both, searches find the elements at the
same places, and the elements at each place, the two themselves among them, are read alike. -/
theorem reading_ignores_prefixes
    {e other : Element}
    (h : e.Namesakes other) :
    (e.places other).map Prod.fst = e.deepElements ∧
    (e.places other).map Prod.snd = other.deepElements ∧
    (∀ wanted,
      let found := (e.places other).filter (·.1.is wanted)
      e.descendants wanted = found.map Prod.fst ∧
      other.descendants wanted = found.map Prod.snd ∧
      e.firstDescendant? wanted = found.head?.map Prod.fst ∧
      other.firstDescendant? wanted = found.head?.map Prod.snd) ∧
    ∀ pair ∈ (e, other) :: e.places other,
      ReadsAlike pair.1 pair.2 ∧
        ∀ href, Notification.ofElement pair.2 href = Notification.ofElement pair.1 href := by
  refine ⟨h.map_places.1, h.map_places.2, ?_, ?_⟩
  · intro wanted found
    obtain ⟨hfirst, hsecond⟩ := h.descendants_eq wanted
    refine ⟨hfirst, hsecond, ?_, ?_⟩
    · rw [Element.firstDescendant?_eq_head?, hfirst, List.head?_map]
    · rw [Element.firstDescendant?_eq_head?, hsecond, List.head?_map]
  · intro pair hpair
    apply readsAlike_of_retag_eq
    rcases List.mem_cons.1 hpair with rfl | hpair
    · exact h.retag_eq
    · exact h.retag_eq_of_mem_places hpair

/-- A response that tells of a calendar, under the given prefixes and namespaces. -/
def ofCalendar
    (start own : String)
    (space ownSpace : Option String) : Element :=
  let types : Element := ⟨{ name := start ++ "resourcetype", space },
    .element { name := own ++ "calendar", space := ownSpace } .nothing .nothing⟩
  let group : Element := ⟨{ name := start ++ "propstat", space },
    .element { name := start ++ "prop", space } types.alone .nothing⟩
  ⟨{ name := start ++ "response", space },
    .element { name := start ++ "href", space } (.text "/dav/work/" .nothing)
      (.text "\n" group.alone)⟩

/-- A prefix for every name, and none at all. -/
theorem reading_ignores_prefixes_of_calendar :
    let prefixed := ofCalendar "D:" "cal:" none none
    let plain := ofCalendar "" "" (some Space.dav) (some Space.calDav)
    prefixed.Namesakes plain ∧ ReadsAlike prefixed plain ∧
      Folder.ofResponse plain = { href := "/dav/work/", resourceTypes := ["calendar"] } := by
  intro prefixed plain
  have htag : ∀ name other space,
      Xml.localPart name = Xml.localPart other →
        ({ name } : Tag).Namesakes { name := other, space } :=
    fun _ _ _ hname => ⟨hname, rfl⟩
  have hsame : prefixed.Namesakes plain :=
    ⟨htag _ _ _ (by decide),
      .element (htag _ _ _ (by decide)) (.text _ .nothing)
        (.text _ (.element (htag _ _ _ (by decide))
          (.element (htag _ _ _ (by decide))
            (.element (htag _ _ _ (by decide))
              (.element (htag _ _ _ (by decide)) .nothing .nothing) .nothing)
            .nothing)
          .nothing))⟩
  obtain ⟨-, -, -, hreads⟩ := reading_ignores_prefixes hsame
  exact ⟨hsame, (hreads (prefixed, plain) List.mem_cons_self).1, by decide +kernel⟩

end Response
end PimDav
