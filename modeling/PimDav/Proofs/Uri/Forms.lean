import Mathlib.Data.Set.Function
import PimDav.Proofs.Uri.Below

/-!
# The kept form and the form of the server

An href has two normal forms: the text that is kept, and the text with the root in front that
the server has to see.  Whatever an href looks like, putting the root in front of it gives the
second form, and the two forms determine each other.
-/

namespace PimDav
namespace Uri

variable {base : Uri}

theorem beginsWith_slash_iff
    {s : String} :
    Text.beginsWith "/" s = true ↔ s.toList.head? = some '/' := by
  have hslash : "/".toList = ['/'] := rfl
  rw [Text.beginsWith, hslash, List.isPrefixOf_iff_prefix]
  cases s.toList with
  | nil => simp
  | cons c cs => rw [List.cons_prefix_cons, List.head?_cons, Option.some.injEq, eq_comm]; simp

/-- Nothing that is added to the root begins with a slash. -/
theorem beginsWith_slash_underRoot
    (base : Uri)
    (href : String) :
    Text.beginsWith "/" (base.underRoot href) = false := by
  rw [← Bool.not_eq_true, beginsWith_slash_iff]
  exact base.head?_underRoot href

/-- The form of the server is taken apart into the root and the kept form. -/
theorem relative_absolute
    (hpath : Target.IsPath base.path)
    (href : String) :
    base.relative (base.absolute href) = base.underRoot href := by
  rw [absolute, relative_root_append hpath]

/-- Putting the root in front of either form gives the form of the server. -/
theorem absolute_underRoot
    (hpath : Target.IsPath base.path)
    (href : String) :
    base.absolute (base.underRoot href) = base.absolute href ∧
      base.absolute (base.absolute href) = base.absolute href :=
  absolute_of_noSlash hpath (base.beginsWith_slash_underRoot href)

/-- Kept forms and forms of the server correspond to each other one to one. -/
theorem bijOn_relative
    (hpath : Target.IsPath base.path) :
    Set.BijOn base.relative (Set.range base.absolute) {x | Text.beginsWith "/" x = false} := by
  have hinverse : Set.InvOn base.absolute base.relative (Set.range base.absolute)
      {x | Text.beginsWith "/" x = false} := by
    constructor
    · rintro _ ⟨href, rfl⟩
      rw [relative_absolute hpath, (absolute_underRoot hpath href).1]
    · intro x hx
      rw [(absolute_of_noSlash hpath hx).1, relative_root_append hpath]
  apply hinverse.bijOn
  · rintro _ ⟨href, rfl⟩
    rw [Set.mem_ofPred_eq, relative_absolute hpath]
    exact base.beginsWith_slash_underRoot href
  · intro x _
    exact Set.mem_range_self x

/-- Whatever an href is, the form of the server is the root with something that begins with no
slash. Making it again changes nothing, neither directly nor by way of the kept form, and two
hrefs have the same kept form exactly when they have the same form of the server. -/
theorem absolute_is_normal_form
    {s : String}
    {credentials : Option Credentials}
    {a : Account}
    (hbase : Account.atBase s credentials = .ok a) :
    (∀ href,
      (∃ rest, a.base.absolute href = a.base.root ++ rest ∧ Text.beginsWith "/" rest = false) ∧
        a.base.absolute (a.base.absolute href) = a.base.absolute href ∧
        a.base.absolute (a.base.relative (a.base.absolute href)) = a.base.absolute href) ∧
      (∀ href other,
        a.base.relative (a.base.absolute href) = a.base.relative (a.base.absolute other) ↔
          a.base.absolute href = a.base.absolute other) ∧
      Set.BijOn a.base.relative (Set.range a.base.absolute)
        {x | Text.beginsWith "/" x = false} := by
  have hpath := isPath_of_atBase hbase
  refine ⟨?_, ?_, bijOn_relative hpath⟩
  · intro href
    obtain ⟨hkept, hserver⟩ := absolute_underRoot hpath href
    refine ⟨⟨_, rfl, a.base.beginsWith_slash_underRoot href⟩, hserver, ?_⟩
    rw [relative_absolute hpath, hkept]
  · intro href other
    exact (bijOn_relative hpath).injOn.eq_iff (Set.mem_range_self href) (Set.mem_range_self other)

/-- Slashes, the root several times, and a text that looks like an address of the web. -/
theorem absolute_is_normal_form_thorny :
    let base : Uri := ⟨"https", "dav.example", ⟨"/dav", none⟩⟩
    Account.atBase "https://dav.example/dav" none = .ok { base } ∧
      base.absolute "///dav//dav/" = "/dav/dav//dav/" ∧
      base.absolute (base.absolute "///dav//dav/") = base.absolute "///dav//dav/" ∧
      base.absolute (base.relative (base.absolute "http://h/dav/x")) =
        base.absolute "http://h/dav/x" ∧
      base.relative (base.absolute "/dav") = base.relative (base.absolute "//") := by
  intro base
  have hbase : Account.atBase "https://dav.example/dav" none = .ok { base } := by rfl
  obtain ⟨hnormal, hkept, -⟩ := absolute_is_normal_form hbase
  exact ⟨hbase, by decide, (hnormal _).2.1, (hnormal _).2.2, (hkept _ _).2 (by decide)⟩

end Uri
end PimDav
