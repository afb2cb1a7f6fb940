import PimDav.Account
import PimDav.Proofs.Text.Words
import PimDav.Proofs.Uri.Target

/-!
# The root in front of hrefs

The root of a base is put in front of an href and taken away again by four
functions.  They agree: a relative href and the same href behind the root are
kept as the same text, are shown to the server as the same text, and name the
same address under the base.
-/

namespace PimDav
namespace Uri

/-- A text that does not begin with a slash and is not empty: something below the
root. -/
structure IsBelow (x : String) : Prop where
  something : x ≠ ""
  noSlash : Text.beginsWith "/" x = false

variable {base : Uri}

/-- Every account has a base whose path begins with a slash. -/
theorem isPath_of_atBase
    {s : String}
    {credentials : Option Credentials}
    {a : Account}
    (hbase : Account.atBase s credentials = .ok a) :
    Target.IsPath a.base.path := by
  unfold Account.atBase at hbase
  split at hbase
  case h_1 uri hread =>
    obtain rfl := Except.ok.inj hbase
    exact isPath_of_read hread
  case h_2 => cases hbase
  case h_3 => cases hbase

/-- The root is a path as well. -/
theorem isPath_root
    (hpath : Target.IsPath base.path) :
    Target.IsPath base.root := by
  obtain ⟨⟨cs, hcs⟩, hplain⟩ := hpath
  unfold root
  split
  · exact ⟨⟨cs, hcs⟩, hplain⟩
  · refine ⟨⟨cs ++ ['/'], by simp [hcs]⟩, ?_⟩
    intro c hc
    rw [String.toList_append, List.mem_append] at hc
    rcases hc with hc | hc
    · exact hplain c hc
    · obtain rfl := List.mem_singleton.1 hc
      decide

/-- The root without its slashes is the beginning of the root. -/
theorem dropTrailing_isPrefix
    (c : Char)
    (s : String) :
    (Text.dropTrailing c s).toList <+: s.toList := by
  have hsuffix := List.dropWhile_suffix (l := s.toList.reverse) (· == c)
  rw [Text.dropTrailing, String.toList_ofList]
  rw [← List.reverse_prefix, List.reverse_reverse] at hsuffix
  exact hsuffix

theorem isRoot_append
    (base : Uri)
    {x : String}
    (hx : x ≠ "") :
    base.isRoot (base.root ++ x) = false := by
  have hlonger : base.root.toList.length < (base.root ++ x).toList.length := by
    have hlength : x.toList.length ≠ 0 := by simpa using hx
    rw [String.toList_append, List.length_append]
    omega
  have hne : ∀ s : String, s.toList.length ≤ base.root.toList.length →
      (base.root ++ x == s) = false := by
    intro s hs
    rw [beq_eq_false_iff_ne]
    rintro rfl
    omega
  rw [isRoot, hne _ (Nat.le_refl _), hne _ (dropTrailing_isPrefix '/' base.root).length_le]
  rfl

theorem isRoot_below
    (hpath : Target.IsPath base.path)
    {x : String}
    (hx : IsBelow x) :
    base.isRoot x = false := by
  obtain ⟨cs, hcs⟩ := (isPath_root hpath).slash
  -- What begins like the root begins with a slash, unless it is empty.
  have hne : ∀ s : String, s.toList <+: base.root.toList → (x == s) = false := by
    rintro s hs
    rw [beq_eq_false_iff_ne]
    rintro rfl
    cases hxs : x.toList with
    | nil => exact hx.something (String.toList_eq_nil_iff.1 hxs)
    | cons c ds =>
      rw [hxs, hcs, List.cons_prefix_cons] at hs
      have hslash := hx.noSlash
      rw [Text.beginsWith, hxs, hs.1] at hslash
      cases hslash
  rw [isRoot, hne _ (List.prefix_refl _), hne _ (dropTrailing_isPrefix '/' base.root)]
  rfl

theorem dropLeading_below
    {x : String}
    (hx : IsBelow x) :
    Text.dropLeading '/' x = x := by
  have hfirst : x.toList.head? ≠ some '/' := by
    intro hhead
    obtain ⟨cs, hcs⟩ := List.head?_eq_some_iff.1 hhead
    have hslash := hx.noSlash
    rw [Text.beginsWith, hcs] at hslash
    cases hslash
  rw [Text.dropLeading, List.dropWhile_beq_eq_self_of_head?_ne hfirst, String.ofList_toList]

theorem beginsWith_slash_root_append
    (hpath : Target.IsPath base.path)
    (x : String) :
    Text.beginsWith "/" (base.root ++ x) = true := by
  obtain ⟨cs, hcs⟩ := (isPath_root hpath).slash
  rw [Text.beginsWith, String.toList_append, hcs]
  rfl

/-- A text that begins with a slash is no address of the web. -/
theorem isWebAddress_root_append
    (hpath : Target.IsPath base.path)
    (x : String) :
    isWebAddress (base.root ++ x) = false := by
  obtain ⟨cs, hcs⟩ := (isPath_root hpath).slash
  rw [isWebAddress, Text.beginsWith, Text.beginsWith, String.toList_append, hcs]
  rfl

/-- What lies below the root adds itself to the root. -/
theorem underRoot_below
    (hpath : Target.IsPath base.path)
    {x : String}
    (hx : IsBelow x) :
    base.underRoot x = x := by
  rw [underRoot, isRoot_below hpath hx, if_neg Bool.false_ne_true, hx.noSlash,
    if_neg Bool.false_ne_true, dropLeading_below hx]

/-- The root in front of it does not count. -/
theorem underRoot_root_append
    (hpath : Target.IsPath base.path)
    {x : String}
    (hx : IsBelow x) :
    base.underRoot (base.root ++ x) = x := by
  have hafter : Text.after? base.root (base.root ++ x) = some x := Text.after?_eq_some_iff.2 rfl
  rw [underRoot, isRoot_append base hx.something, if_neg Bool.false_ne_true,
    beginsWith_slash_root_append hpath, if_pos rfl, hafter, Option.getD_some, dropLeading_below hx]

/-- The root stands in front once, whether it was there before or not. -/
theorem absolute_of_noSlash
    (hpath : Target.IsPath base.path)
    {x : String}
    (hslash : Text.beginsWith "/" x = false) :
    base.absolute x = base.root ++ x ∧ base.absolute (base.root ++ x) = base.root ++ x := by
  rw [absolute, absolute]
  by_cases hempty : x = ""
  · subst hempty
    have hnothing : base.underRoot "" = "" := by
      rw [underRoot]
      split <;> rfl
    have hroot : base.underRoot base.root = "" := by simp [underRoot, isRoot]
    rw [hnothing, String.append_empty, hroot, String.append_empty]
    exact ⟨rfl, rfl⟩
  · have hx : IsBelow x := ⟨hempty, hslash⟩
    rw [underRoot_below hpath hx, underRoot_root_append hpath hx]
    exact ⟨rfl, rfl⟩

/-- Whatever is said about the path of an href, the root is taken away from it. -/
theorem relative_of_hrefPath
    {href x : String}
    (hpath : hrefPath href = base.root ++ x) :
    base.relative href = x := by
  rw [relative, hpath]
  cases hx : x.isEmpty with
  | true =>
    have hempty : x = "" := String.isEmpty_iff.1 hx
    simp [hempty, isRoot]
  | false =>
    have hne : x ≠ "" := fun h => by simp [h] at hx
    have hafter : Text.after? base.root (base.root ++ x) = some x := Text.after?_eq_some_iff.2 rfl
    simp [isRoot_append base hne, hafter]

theorem relative_root_append
    (hpath : Target.IsPath base.path)
    (x : String) :
    base.relative (base.root ++ x) = x := by
  apply relative_of_hrefPath
  rw [hrefPath, isWebAddress_root_append hpath, if_neg Bool.false_ne_true]

/-- The query stays behind, and the root in front, when a text is cut at its first
question mark. -/
theorem cut_root_append
    (hpath : Target.IsPath base.path)
    (x : String) :
    Text.cut '?' (base.root ++ x) = (base.root ++ (Text.cut '?' x).1, (Text.cut '?' x).2) := by
  have hroot : '?' ∉ base.root.toList := fun hmem => ((isPath_root hpath).plain '?' hmem).1 rfl
  rw [Text.cut, String.toList_append, Text.cutWhere_append_of_not_mem hroot, String.ofList_append,
    String.ofList_toList]
  rfl

/-- The target of an href whose path lies below the root. -/
theorem targetText_below
    (hpath : Target.IsPath base.path)
    {x : String}
    (hx : IsBelow (Text.cut '?' x).1) :
    base.targetText x = base.root ++ x ∧ base.targetText (base.root ++ x) = base.root ++ x := by
  have hne : (Text.cut '?' x).1.isEmpty = false := by simpa using hx.something
  have hwhole :
      base.root ++ (Text.cut '?' x).1 ++ (((Text.cut '?' x).2.map ("?" ++ ·)).getD "") =
        base.root ++ x := by
    rw [String.append_assoc]
    exact congrArg (base.root ++ ·) (Text.cut_whole '?' x)
  constructor
  · rw [targetText, underRoot_below hpath hx, hne, if_neg Bool.false_ne_true, hwhole]
  · rw [targetText, cut_root_append hpath]
    dsimp only
    rw [underRoot_root_append hpath hx, hne, if_neg Bool.false_ne_true, hwhole]

/-- The part before a question mark begins like the whole. -/
theorem isBelow_cut
    {x : String}
    (hslash : Text.beginsWith "/" x = false)
    (hpath : (Text.cut '?' x).1 ≠ "") :
    IsBelow (Text.cut '?' x).1 ∧ IsBelow x := by
  have hbefore : (Text.cut '?' x).1.toList = x.toList.takeWhile fun c => !(c == '?') := by
    rw [Text.cut, String.toList_ofList, Text.cutWhere_fst]
  refine ⟨⟨hpath, ?_⟩, ⟨?_, hslash⟩⟩
  · cases hcs : x.toList with
    | nil => rw [Text.beginsWith, hbefore, hcs]; rfl
    | cons c cs =>
      rw [Text.beginsWith, hcs] at hslash
      rw [Text.beginsWith, hbefore, hcs, List.takeWhile_cons]
      split
      · exact hslash
      · rfl
  · rintro rfl
    exact hpath rfl

/-- An href below the root and the same href behind the root name one address, which
lies on the server of the base and has exactly that path and query. -/
theorem resolve_below
    (hpath : Target.IsPath base.path)
    {x : String}
    (hweb : isWebAddress x = false)
    (hx : IsBelow (Text.cut '?' x).1)
    (hfragment : '#' ∉ x.toList) :
    base.resolve (base.root ++ x) = base.resolve x ∧
      ∀ uri, base.resolve x = .ok uri →
        uri.scheme = base.scheme ∧ uri.authority = base.authority ∧
          uri.target.text = base.root ++ x := by
  obtain ⟨htarget, htargetRoot⟩ := targetText_below hpath hx
  constructor
  · rw [resolve, resolve, isWebAddress_root_append hpath, hweb, if_neg Bool.false_ne_true,
      if_neg Bool.false_ne_true, htarget, htargetRoot]
  · intro uri huri
    rw [resolve, hweb, if_neg Bool.false_ne_true, htarget] at huri
    split at huri
    case h_2 => cases huri
    case h_1 target hread =>
      obtain rfl := Except.ok.inj huri
      obtain ⟨cs, hcs⟩ := (isPath_root hpath).slash
      have hroot : '#' ∉ base.root.toList := fun hmem =>
        ((isPath_root hpath).plain '#' hmem).2 rfl
      refine ⟨rfl, rfl, Target.text_of_read? hread ⟨cs ++ x.toList, by simp [hcs]⟩ ?_⟩
      rw [String.toList_append, List.mem_append]
      exact fun hmem => hmem.elim hroot hfragment

/-- The root ends with a slash. -/
theorem getLast?_root
    (base : Uri) :
    base.root.toList.getLast? = some '/' := by
  rw [root]
  split
  case isTrue hends =>
    obtain ⟨start, hwhole⟩ := List.isSuffixOf_iff_suffix.1 hends
    rw [← hwhole]
    exact List.getLast?_concat
  case isFalse =>
    rw [String.toList_append]
    exact List.getLast?_concat

/-- What an href adds to the root is its end. -/
theorem underRoot_isSuffix
    (base : Uri)
    (href : String) :
    (base.underRoot href).toList <:+ href.toList := by
  have hdrop : ∀ s : String, s.toList <:+ href.toList →
      (Text.dropLeading '/' s).toList <:+ href.toList := by
    intro s hs
    rw [Text.dropLeading, String.toList_ofList]
    exact (List.dropWhile_suffix _).trans hs
  rw [underRoot]
  split
  · exact List.nil_suffix
  · apply hdrop
    split
    · cases hafter : Text.after? base.root href with
      | none => exact List.suffix_refl _
      | some rest =>
        rw [Text.after?_eq_some_iff.1 hafter, String.toList_append]
        exact List.suffix_append _ _
    · exact List.suffix_refl _

/-- An href of the server has no more blanks at its ends than the kept one. -/
theorem trimmed?_absolute
    (hpath : Target.IsPath base.path)
    {href : String}
    (hhref : Text.endsBlank href = false) :
    Text.trimmed? (base.absolute href) = some (base.absolute href) := by
  obtain ⟨cs, hcs⟩ := (isPath_root hpath).slash
  have hfirst : (base.absolute href).toList = '/' :: (cs ++ (base.underRoot href).toList) := by
    rw [absolute, String.toList_append, hcs]
    rfl
  refine Text.trimmed?_eq_some hfirst (by decide) ?_
  have hend : Text.endsBlank (base.underRoot href) = false :=
    Text.endsBlank_of_suffix (base.underRoot_isSuffix href) hhref
  rw [Text.endsBlank] at hend
  rw [Text.endsBlank, absolute, String.toList_append, List.getLast?_append, getLast?_root]
  cases hlast : (base.underRoot href).toList.getLast? with
  | none => decide
  | some c =>
    rw [hlast] at hend
    exact hend

/-- Trimming once more changes nothing. -/
theorem filterMap_trimmed?_absolute
    (hpath : Target.IsPath base.path)
    (hrefs : List String) :
    ((hrefs.filterMap Text.trimmed?).map base.absolute).filterMap Text.trimmed? =
      (hrefs.filterMap Text.trimmed?).map base.absolute := by
  rw [Text.filterMap_trimmed? hrefs]
  induction hrefs with
  | nil => rfl
  | cons href hrefs ih =>
    rw [List.map_cons, List.filter_cons]
    split
    · rw [List.map_cons, List.filterMap_cons,
        trimmed?_absolute hpath (Text.endsBlank_trim href), ih]
    · exact ih

/-- The law of the root: taking it away, putting it in front and resolving agree for
every base and every href below the root, also when the href came as an address of
the web. -/
theorem root_laws
    {s : String}
    {credentials : Option Credentials}
    {a : Account}
    (hbase : Account.atBase s credentials = .ok a)
    {x : String}
    (hslash : Text.beginsWith "/" x = false)
    (hweb : isWebAddress x = false)
    (hfragment : '#' ∉ x.toList)
    (hpath : (Text.cut '?' x).1 ≠ "") :
    a.base.relative (a.base.root ++ x) = x ∧
      a.base.absolute x = a.base.root ++ x ∧
      a.base.absolute (a.base.root ++ x) = a.base.root ++ x ∧
      a.base.resolve (a.base.root ++ x) = a.base.resolve x ∧
      (∀ uri, a.base.resolve x = .ok uri →
        uri.scheme = a.base.scheme ∧ uri.authority = a.base.authority ∧
          uri.target.text = a.base.root ++ x) ∧
      ∀ href uri, isWebAddress href = true → read href = .ok uri →
        uri.path = a.base.root ++ x → a.base.relative href = x := by
  have hroot := isPath_of_atBase hbase
  obtain ⟨hbefore, hx⟩ := isBelow_cut hslash hpath
  obtain ⟨hsame, hserver⟩ := resolve_below hroot hweb hbefore hfragment
  refine ⟨relative_root_append hroot x, ?_, ?_, hsame, hserver, ?_⟩
  · rw [absolute, underRoot_below hroot hx]
  · rw [absolute, underRoot_root_append hroot hx]
  · intro href uri haddress hread hhref
    apply relative_of_hrefPath
    rw [hrefPath, haddress, if_pos rfl, hread]
    exact hhref

/-- A root whose name comes again further down, and a query that holds it too. -/
theorem root_laws_repeated_root :
    let base : Uri := ⟨"https", "dav.example", ⟨"/dav", none⟩⟩
    Account.atBase "https://dav.example/dav" none = .ok { base } ∧
      base.relative "/dav/dav/davis?at=/dav/" = "dav/davis?at=/dav/" ∧
      base.absolute "dav/davis?at=/dav/" = "/dav/dav/davis?at=/dav/" ∧
      base.resolve "/dav/dav/davis?at=/dav/" = base.resolve "dav/davis?at=/dav/" := by
  have hbase :
      Account.atBase "https://dav.example/dav" none =
        .ok { base := ⟨"https", "dav.example", ⟨"/dav", none⟩⟩ } := by
    rfl
  obtain ⟨hrelative, habsolute, -, hresolve, -⟩ :=
    root_laws hbase (x := "dav/davis?at=/dav/") (by decide) (by decide) (by decide) (by decide)
  exact ⟨hbase, hrelative, habsolute, hresolve⟩

end Uri
end PimDav
