import Mathlib.Data.List.TakeWhile
import PimDav.Proofs.Uri.Forms

/-!
# One address for both forms

An href and its form of the server name the same address, with one exception.  The root
without its slash is known as the root only if it is the whole text, and the form of the server
is made without looking for a query.  So in front of a query that root counts as a name below
the root, and the form of the server leads to a place that has the name twice.
-/

namespace PimDav

namespace Text

/-- A text without a separator is not cut. -/
theorem cut_of_not_mem
    {sep : Char}
    {s : String}
    (hs : sep ∉ s.toList) :
    cut sep s = (s, none) := by
  have hcut := cutWhere_append_of_not_mem hs []
  rw [List.append_nil] at hcut
  rw [cut, hcut, cutWhere, List.append_nil, String.ofList_toList]
  rfl

/-- A text is cut where its first separator stands. -/
theorem cut_append
    {sep : Char}
    {s : String}
    (hs : sep ∉ s.toList)
    (rest : String) :
    cut sep (s ++ String.ofList [sep] ++ rest) = (s, some rest) := by
  have hwhole : (s ++ String.ofList [sep] ++ rest).toList = s.toList ++ sep :: rest.toList := by
    simp
  have hcut : cutWhere (· == sep) (sep :: rest.toList) = ([], some rest.toList) := by
    simp [cutWhere]
  rw [cut, hwhole, cutWhere_append_of_not_mem hs, hcut, List.append_nil, String.ofList_toList,
    Option.map_some, String.ofList_toList]

/-- A text holds no separator, or it has a part before the first one and a rest. -/
theorem separator_cases
    (sep : Char)
    (s : String) :
    sep ∉ s.toList ∨
      ∃ before after, s = before ++ String.ofList [sep] ++ after ∧ sep ∉ before.toList := by
  by_cases hmem : sep ∈ s.toList
  · obtain ⟨before, after, hs, hbefore⟩ := List.eq_append_cons_of_mem hmem
    refine Or.inr ⟨String.ofList before, String.ofList after, ?_, ?_⟩
    · rw [← String.toList_inj, hs]
      simp
    · rwa [String.toList_ofList]
  · exact Or.inl hmem

/-- Only leading characters are dropped, so a separator of another kind stays with what
follows it. -/
theorem dropLeading_append
    {c sep : Char}
    (hsep : sep ≠ c)
    (s rest : String) :
    dropLeading c (s ++ String.ofList [sep] ++ rest) =
      dropLeading c s ++ String.ofList [sep] ++ rest := by
  have hstop : (sep == c) = false := beq_eq_false_iff_ne.2 hsep
  rw [← String.toList_inj]
  simp only [dropLeading, String.toList_append, String.toList_ofList, List.append_assoc,
    List.singleton_append, List.dropWhile_append, List.dropWhile_cons, hstop,
    if_neg Bool.false_ne_true]
  split
  case isTrue hnone => rw [List.isEmpty_iff.1 hnone, List.nil_append]
  case isFalse => rfl

/-- A beginning without the separator is found before the separator, or not at all. -/
theorem after?_append
    {sep : Char}
    {start : String}
    (hstart : sep ∉ start.toList)
    (s rest : String) :
    after? start (s ++ String.ofList [sep] ++ rest) =
      (after? start s).map (· ++ String.ofList [sep] ++ rest) := by
  cases hafter : after? start s with
  | some found =>
    rw [after?_eq_some_iff.1 hafter, Option.map_some, after?_eq_some_iff]
    simp only [String.append_assoc]
  | none =>
    rw [Option.map_none, Option.eq_none_iff_forall_ne_some]
    intro found hfound
    have hwhole := congrArg String.toList (after?_eq_some_iff.1 hfound)
    rw [String.toList_append, String.toList_append, String.toList_append, String.toList_ofList,
      List.append_assoc, List.singleton_append] at hwhole
    rcases List.append_eq_append_iff.1 hwhole with ⟨more, hmore, htail⟩ | ⟨more, hmore, -⟩
    · -- The beginning would reach over the separator.
      cases more with
      | nil =>
        rw [List.append_nil] at hmore
        have hsome : after? start s = some "" := by
          rw [after?_eq_some_iff, String.append_empty, ← String.toList_inj, hmore]
        rw [hsome] at hafter
        cases hafter
      | cons c more =>
        obtain ⟨rfl, -⟩ := List.cons_eq_cons.1 htail
        apply hstart
        rw [hmore]
        exact List.mem_append_right _ List.mem_cons_self
    · have hsome : after? start s = some (String.ofList more) := by
        rw [after?_eq_some_iff, ← String.toList_inj, hmore]
        simp
      rw [hsome] at hafter
      cases hafter

/-- A text without its leading characters does not begin with one of them. -/
theorem head?_dropLeading
    (c : Char)
    (s : String) :
    (dropLeading c s).toList.head? ≠ some c := by
  intro hhead
  have hfirst := List.head?_dropWhile_not (· == c) s.toList
  rw [dropLeading, String.toList_ofList] at hhead
  rw [hhead] at hfirst
  exact absurd hfirst (by simp)

/-- A text without its trailing characters does not end with one of them. -/
theorem getLast?_dropTrailing
    (c : Char)
    (s : String) :
    (dropTrailing c s).toList.getLast? ≠ some c := by
  intro hlast
  have hfirst := List.head?_dropWhile_not (· == c) s.toList.reverse
  rw [dropTrailing, String.toList_ofList, List.getLast?_reverse] at hlast
  rw [hlast] at hfirst
  exact absurd hfirst (by simp)

end Text

namespace Target

/-- What stands in front of a query is the path, if nothing in it ends a path. -/
theorem path_of_read?
    {path query : String}
    {t : Target}
    (hpath : IsPath path)
    (hread : read? (path ++ ("?" ++ query)) = some t) :
    t.path = path := by
  obtain ⟨cs, hcs⟩ := hpath.slash
  have hslash : (path ++ ("?" ++ query)).toList = '/' :: (cs ++ ("?" ++ query).toList) := by
    rw [String.toList_append, hcs, List.cons_append]
  have hsome : path.toList ≠ [] := by
    rw [hcs]
    exact List.cons_ne_nil _ _
  have hchars := ofChars?_of_read? hslash hread
  have hquestion : ∀ c ∈ ("?" ++ query).toList.head?, c = '?' := by
    intro c hc
    rw [String.toList_append] at hc
    exact (Option.some.inj hc).symm
  rw [String.toList_append] at hchars
  rw [(ofChars?_append hpath.plain hsome hchars).1, parts_fst_of_head hquestion, List.append_nil,
    String.ofList_toList]

/-- What it takes that a target can be read. -/
theorem isSome_ofChars?_iff
    {cs : List Char} :
    (ofChars? cs).isSome = true ↔
      (parts cs).1.all isPathChar = true ∧ ((parts cs).2.getD []).all isQueryChar = true := by
  rw [← Bool.and_eq_true]
  unfold ofChars? parts
  dsimp only
  split
  case isTrue hall => exact iff_of_true rfl hall
  case isFalse hnone => exact iff_of_false Bool.false_ne_true hnone

/-- What it takes that a text that begins with a slash can be read as a target. -/
theorem isSome_read?_iff
    {s : String}
    (hslash : s.toList.head? = some '/') :
    (read? s).isSome = true ↔
      (Utf8.encode s).length ≤ lengthLimit ∧ (ofChars? s.toList).isSome = true := by
  obtain ⟨cs, hcs⟩ := List.head?_eq_some_iff.1 hslash
  unfold read?
  rw [hcs]
  split
  case isTrue hlong =>
    have hnot : ¬ (Utf8.encode s).length ≤ lengthLimit := Nat.not_le.2 hlong
    simp [hnot]
  case isFalse hshort =>
    have hlength : (Utf8.encode s).length ≤ lengthLimit := Nat.not_lt.1 hshort
    simp [hlength]

/-- Behind the beginning of a path a query is read if it is read behind the path. -/
theorem isSome_read?_of_prefix
    {path more query : String}
    (hpath : IsPath path)
    (hmore : ArePlain more.toList)
    (hread : (read? (path ++ more ++ ("?" ++ query))).isSome = true) :
    (read? (path ++ ("?" ++ query))).isSome = true := by
  obtain ⟨cs, hcs⟩ := hpath.slash
  have hslash : ∀ rest : String, (path ++ rest).toList.head? = some '/' := by
    intro rest
    rw [String.toList_append, hcs]
    rfl
  have hlong : ArePlain (path.toList ++ more.toList) :=
    List.forall_mem_append.2 ⟨hpath.plain, hmore⟩
  rw [String.append_assoc, isSome_read?_iff (hslash _), isSome_ofChars?_iff, ← String.append_assoc,
    String.toList_append, String.toList_append, parts_append hlong] at hread
  obtain ⟨hlength, hchars, hquery⟩ := hread
  rw [isSome_read?_iff (hslash _), isSome_ofChars?_iff, String.toList_append,
    parts_append hpath.plain]
  refine ⟨?_, ?_, hquery⟩
  · simp only [Utf8.encode_append, List.length_append] at hlength ⊢
    omega
  · rw [List.append_assoc, List.all_append, Bool.and_eq_true] at hchars
    rw [List.all_append, Bool.and_eq_true]
    refine ⟨hchars.1, ?_⟩
    rw [List.all_append, Bool.and_eq_true] at hchars
    exact hchars.2.2

end Target

namespace Uri

variable {base : Uri}

/-- The root without its slashes, which is empty if there is nothing else. -/
def bareRoot (base : Uri) : String :=
  Text.dropTrailing '/' base.root

/-- What an href adds to the root, unless it is the root. -/
def withoutRoot
    (base : Uri)
    (href : String) : String :=
  Text.dropLeading '/' <|
    if Text.beginsWith "/" href then (Text.after? base.root href).getD href else href

theorem underRoot_eq
    (base : Uri)
    (href : String) :
    base.underRoot href = if base.isRoot href then "" else base.withoutRoot href :=
  rfl

theorem isRoot_iff
    {path : String} :
    base.isRoot path = true ↔ path = base.root ∨ path = base.bareRoot := by
  rw [isRoot, Bool.or_eq_true, beq_iff_eq, beq_iff_eq]
  rfl

theorem bareRoot_isPrefix
    (base : Uri) :
    base.bareRoot.toList <+: base.root.toList :=
  dropTrailing_isPrefix '/' base.root

/-- Nothing in either spelling of the root starts a query. -/
theorem arePlain_of_isRoot
    (hpath : Target.IsPath base.path)
    {path : String}
    (hroot : base.isRoot path = true) :
    Target.ArePlain path.toList := by
  rcases isRoot_iff.1 hroot with rfl | rfl
  · exact (isPath_root hpath).plain
  · exact fun c hc => (isPath_root hpath).plain c (base.bareRoot_isPrefix.subset hc)

/-- Only the root, and slashes, are taken away in front of a query. -/
theorem withoutRoot_append_query
    (hpath : Target.IsPath base.path)
    (path query : String) :
    base.withoutRoot (path ++ "?" ++ query) = base.withoutRoot path ++ "?" ++ query := by
  have hmark : "?" = String.ofList ['?'] := rfl
  have hroot : '?' ∉ base.root.toList := fun hmem => ((isPath_root hpath).plain _ hmem).1 rfl
  have hbegin : Text.beginsWith "/" (path ++ "?" ++ query) = Text.beginsWith "/" path := by
    rw [Bool.eq_iff_iff, beginsWith_slash_iff, beginsWith_slash_iff, String.append_assoc,
      String.toList_append]
    cases path.toList with
    | nil => simp
    | cons c cs => rfl
  rw [withoutRoot, withoutRoot, hbegin, hmark, Text.after?_append hroot]
  cases Text.beginsWith "/" path with
  | false => exact Text.dropLeading_append (by decide) path query
  | true =>
    cases Text.after? base.root path with
    | none => exact Text.dropLeading_append (by decide) path query
    | some rest => exact Text.dropLeading_append (by decide) rest query

/-- Slashes aside, nothing is taken away of the root without its slashes. -/
theorem withoutRoot_bareRoot
    (base : Uri) :
    base.withoutRoot base.bareRoot = Text.dropLeading '/' base.bareRoot := by
  have hafter : Text.after? base.root base.bareRoot = none := by
    rw [Option.eq_none_iff_forall_ne_some]
    intro rest hrest
    have hwhole := congrArg String.toList (Text.after?_eq_some_iff.1 hrest)
    rw [String.toList_append] at hwhole
    have hsame : base.bareRoot.toList = base.root.toList :=
      base.bareRoot_isPrefix.eq_of_length_le (by rw [hwhole, List.length_append]; omega)
    have hlast := Text.getLast?_dropTrailing '/' base.root
    rw [← bareRoot, hsame, getLast?_root] at hlast
    exact hlast rfl
  rw [withoutRoot, hafter, Option.getD_none, ite_self]

/-- The root with its slash needs no special case, and neither does the empty text. -/
theorem withoutRoot_eq_underRoot
    (hpath : Target.IsPath base.path)
    {path : String}
    (hbare : path = base.bareRoot → path = "") :
    base.withoutRoot path = base.underRoot path := by
  have hroot : base.withoutRoot base.root = "" := by
    have hbegin := beginsWith_slash_root_append hpath ""
    rw [String.append_empty] at hbegin
    have hafter : Text.after? base.root base.root = some "" := by
      rw [Text.after?_eq_some_iff, String.append_empty]
    rw [withoutRoot, hbegin, if_pos rfl, hafter]
    rfl
  rw [underRoot_eq]
  split
  case isTrue his =>
    rcases isRoot_iff.1 his with rfl | hpath
    · exact hroot
    · rw [hbare hpath]
      rfl
  case isFalse => rfl

/-- An href in front of a query is not the root as a whole. -/
theorem underRoot_append_query
    (hpath : Target.IsPath base.path)
    (path query : String) :
    base.underRoot (path ++ "?" ++ query) = base.withoutRoot path ++ "?" ++ query := by
  have hroot : base.isRoot (path ++ "?" ++ query) = false := by
    rw [← Bool.not_eq_true]
    intro hroot
    exact (arePlain_of_isRoot hpath hroot '?' (by simp)).1 rfl
  rw [underRoot_eq, hroot, if_neg Bool.false_ne_true, withoutRoot_append_query hpath]

/-- An href that is not the root without its slash in front of a query. -/
def IsUsual (base : Uri) (href : String) : Prop :=
  ∀ query, href = base.bareRoot ++ "?" ++ query → base.bareRoot = ""

/-- It makes no difference for a usual href whether the root is taken away before or after the
query is cut off. -/
theorem cut_underRoot
    (hpath : Target.IsPath base.path)
    {href : String}
    (husual : base.IsUsual href) :
    Text.cut '?' (base.underRoot href) =
      (base.underRoot (Text.cut '?' href).1, (Text.cut '?' href).2) := by
  have habsent : ∀ {s : String}, '?' ∉ s.toList → '?' ∉ (base.underRoot s).toList :=
    fun hs hmem => hs ((base.underRoot_isSuffix _).subset hmem)
  rcases Text.separator_cases '?' href with hnone | ⟨path, query, rfl, hpart⟩
  · rw [Text.cut_of_not_mem hnone, Text.cut_of_not_mem (habsent hnone)]
  · have hbare : path = base.bareRoot → path = "" := by
      rintro rfl
      exact husual query rfl
    rw [Text.cut_append hpart]
    show Text.cut '?' (base.underRoot (path ++ "?" ++ query)) = _
    rw [underRoot_append_query hpath, withoutRoot_eq_underRoot hpath hbare]
    exact Text.cut_append (habsent hpart) query

/-- Either form of a usual href has the same target. -/
theorem targetText_absolute
    (hpath : Target.IsPath base.path)
    {href : String}
    (husual : base.IsUsual href) :
    base.targetText (base.absolute href) = base.targetText href := by
  have hagain : ∀ path, base.underRoot (base.root ++ base.underRoot path) = base.underRoot path :=
    fun path => (String.append_right_inj base.root).1 (absolute_underRoot hpath path).2
  rw [targetText, targetText, absolute, cut_root_append hpath, cut_underRoot hpath husual]
  dsimp only
  rw [hagain]

/-- An href that is no address of the web can fail in one way only. -/
theorem resolve_eq_error_iff
    {href : String}
    {fault : Fault}
    (hweb : isWebAddress href = false) :
    base.resolve href = .error fault ↔
      Target.read? (base.targetText href) = none ∧ fault = .badUri none := by
  rw [resolve, hweb, if_neg Bool.false_ne_true]
  cases Target.read? (base.targetText href) with
  | none => simp [eq_comm]
  | some target => simp

theorem isWebAddress_absolute
    (hpath : Target.IsPath base.path)
    (href : String) :
    isWebAddress (base.absolute href) = false :=
  isWebAddress_root_append hpath _

/-- The root behind the root, as if its name were that of something below it. -/
def doubledRoot (base : Uri) : String :=
  base.root ++ Text.dropLeading '/' base.bareRoot

section BareRoot

variable (hpath : Target.IsPath base.path)

/-- A root that is more than slashes has a name. -/
theorem isBelow_bareRoot
    (hnamed : base.bareRoot ≠ "") :
    IsBelow (Text.dropLeading '/' base.bareRoot) where
  something := by
    intro hnone
    rw [Text.dropLeading, String.ofList_eq_empty_iff, List.dropWhile_eq_nil_iff] at hnone
    cases hlast : base.bareRoot.toList.getLast? with
    | none =>
      rw [List.getLast?_eq_none_iff, String.toList_eq_nil_iff] at hlast
      exact hnamed hlast
    | some c =>
      obtain rfl := beq_iff_eq.1 (hnone c (List.mem_of_getLast? hlast))
      exact Text.getLast?_dropTrailing '/' base.root hlast
  noSlash := by
    rw [← Bool.not_eq_true, beginsWith_slash_iff]
    exact Text.head?_dropLeading '/' base.bareRoot

/-- The doubled root is not the path of the base. -/
theorem doubledRoot_ne
    (hnamed : base.bareRoot ≠ "") :
    base.doubledRoot ≠ base.path := by
  intro hsame
  have hroot : base.path.toList.length ≤ base.root.toList.length := by
    rw [root]
    split
    · exact Nat.le_refl _
    · simp
  have hsome : (Text.dropLeading '/' base.bareRoot).toList.length ≠ 0 := by
    simpa using (isBelow_bareRoot hnamed).something
  have hlength := congrArg (fun s => s.toList.length) hsame
  simp only [doubledRoot, String.toList_append, List.length_append] at hlength
  omega

include hpath

theorem arePlain_bareRoot :
    Target.ArePlain base.bareRoot.toList :=
  arePlain_of_isRoot hpath (isRoot_iff.2 (Or.inr rfl))

theorem isPath_doubledRoot :
    Target.IsPath base.doubledRoot := by
  obtain ⟨⟨cs, hcs⟩, hplain⟩ := isPath_root hpath
  refine ⟨⟨cs ++ (Text.dropLeading '/' base.bareRoot).toList, ?_⟩, ?_⟩
  · rw [doubledRoot, String.toList_append, hcs, List.cons_append]
  · intro c hc
    rw [doubledRoot, String.toList_append, List.mem_append] at hc
    rcases hc with hc | hc
    · exact hplain c hc
    · rw [Text.dropLeading, String.toList_ofList] at hc
      exact arePlain_bareRoot hpath c ((List.dropWhile_suffix _).subset hc)

/-- The path of the base is the beginning of the root, and so of the doubled one. -/
theorem doubledRoot_eq :
    ∃ more, base.doubledRoot = base.path ++ more ∧ Target.ArePlain more.toList := by
  have hroot : ∃ slash, base.root = base.path ++ slash := by
    rw [root]
    split
    · exact ⟨"", (String.append_empty).symm⟩
    · exact ⟨"/", rfl⟩
  obtain ⟨slash, hslash⟩ := hroot
  refine ⟨slash ++ Text.dropLeading '/' base.bareRoot, ?_, ?_⟩
  · rw [doubledRoot, hslash, String.append_assoc]
  · intro c hc
    apply (isPath_doubledRoot hpath).plain
    rw [doubledRoot, hslash, String.append_assoc, String.toList_append]
    exact List.mem_append_right _ hc

variable (query : String)

/-- In front of a query the form of the server has the name of the root twice. -/
theorem absolute_bareRoot_query :
    base.absolute (base.bareRoot ++ "?" ++ query) = base.doubledRoot ++ ("?" ++ query) := by
  rw [absolute, underRoot_append_query hpath, withoutRoot_bareRoot, doubledRoot]
  simp only [String.append_assoc]

/-- The target of the href itself has the path of the base. -/
theorem targetText_bareRoot_query :
    base.targetText (base.bareRoot ++ "?" ++ query) = base.path ++ ("?" ++ query) := by
  have hcut : Text.cut '?' (base.bareRoot ++ "?" ++ query) = (base.bareRoot, some query) :=
    Text.cut_append (fun hmem => (arePlain_bareRoot hpath '?' hmem).1 rfl) query
  have hunder : base.underRoot base.bareRoot = "" := underRoot_of_root (by simp [bareRoot])
  rw [targetText, hcut]
  dsimp only
  rw [hunder, Option.map_some, Option.getD_some]
  rfl

/-- The target of its form of the server has the doubled root for its path. -/
theorem targetText_absolute_bareRoot_query
    (hnamed : base.bareRoot ≠ "") :
    base.targetText (base.absolute (base.bareRoot ++ "?" ++ query)) =
      base.doubledRoot ++ ("?" ++ query) := by
  have hmark : '?' ∉ (Text.dropLeading '/' base.bareRoot).toList := by
    rw [Text.dropLeading, String.toList_ofList]
    exact fun hmem =>
      (arePlain_bareRoot hpath '?' ((List.dropWhile_suffix _).subset hmem)).1 rfl
  have hcut : Text.cut '?' (Text.dropLeading '/' base.bareRoot ++ "?" ++ query) =
      (Text.dropLeading '/' base.bareRoot, some query) := Text.cut_append hmark query
  have hbelow : IsBelow (Text.cut '?' (Text.dropLeading '/' base.bareRoot ++ "?" ++ query)).1 := by
    rw [hcut]
    exact isBelow_bareRoot hnamed
  have hjoined : base.doubledRoot ++ ("?" ++ query) =
      base.root ++ (Text.dropLeading '/' base.bareRoot ++ "?" ++ query) := by
    rw [doubledRoot]
    simp only [String.append_assoc]
  rw [absolute_bareRoot_query hpath, hjoined]
  exact (targetText_below hpath hbelow).2

/-- The two forms of the root without its slash in front of a query name different addresses, if
they name any. -/
theorem resolve_absolute_bareRoot_query
    (hnamed : base.bareRoot ≠ "")
    (hweb : isWebAddress (base.bareRoot ++ "?" ++ query) = false) :
    base.resolve (base.absolute (base.bareRoot ++ "?" ++ query)) =
        base.resolve (base.bareRoot ++ "?" ++ query) ↔
      ∃ fault, base.resolve (base.bareRoot ++ "?" ++ query) = .error fault := by
  have hwebRoot := isWebAddress_absolute hpath (base.bareRoot ++ "?" ++ query)
  have htext := targetText_bareRoot_query hpath query
  have htextRoot := targetText_absolute_bareRoot_query hpath query hnamed
  constructor
  · intro hsame
    cases hresolve : base.resolve (base.bareRoot ++ "?" ++ query) with
    | error fault => exact ⟨fault, rfl⟩
    | ok uri =>
      rw [hresolve, resolve_eq_ok_iff hwebRoot, htextRoot] at hsame
      rw [resolve_eq_ok_iff hweb, htext] at hresolve
      obtain ⟨target, hread, rfl⟩ := hresolve
      obtain ⟨doubled, hreadRoot, heq⟩ := hsame
      obtain rfl : target = doubled := congrArg Uri.target heq
      have hpathRoot := Target.path_of_read? (isPath_doubledRoot hpath) hreadRoot
      rw [Target.path_of_read? hpath hread] at hpathRoot
      exact absurd hpathRoot.symm (doubledRoot_ne hnamed)
  · rintro ⟨fault, herror⟩
    rw [herror, resolve_eq_error_iff hwebRoot, htextRoot]
    rw [resolve_eq_error_iff hweb, htext] at herror
    refine ⟨?_, herror.2⟩
    obtain ⟨more, hmore, hplain⟩ := doubledRoot_eq hpath
    rw [← Option.not_isSome_iff_eq_none] at herror ⊢
    rw [hmore]
    exact fun hread => herror.1 (Target.isSome_read?_of_prefix hpath hplain hread)

end BareRoot

/-- An href and its form of the server name the same address, or none, exactly when the href is
not the root without its slash in front of a query with which it has an address.  The root is
put in front once for either spelling alone, and with its slash also in front of a query; and
an href whose path is either spelling leads to the path of the base. -/
theorem resolve_absolute_eq_iff
    {s : String}
    {credentials : Option Credentials}
    {a : Account}
    (hbase : Account.atBase s credentials = .ok a)
    {href : String}
    (hweb : isWebAddress href = false) :
    (a.base.resolve (a.base.absolute href) = a.base.resolve href ↔
        a.base.IsUsual href ∨ ∃ fault, a.base.resolve href = .error fault) ∧
      ((Text.cut '?' href).1 ∈ [a.base.root, a.base.bareRoot] →
        ∀ uri, a.base.resolve href = .ok uri → uri.path = a.base.path) ∧
      a.base.absolute a.base.root = a.base.root ∧
      a.base.absolute a.base.bareRoot = a.base.root ∧
      ∀ query,
        a.base.absolute (a.base.root ++ "?" ++ query) = a.base.root ++ "?" ++ query ∧
          a.base.absolute (a.base.bareRoot ++ "?" ++ query) =
            a.base.root ++ Text.dropLeading '/' a.base.bareRoot ++ "?" ++ query := by
  have hpath := isPath_of_atBase hbase
  have hspelled : ∀ {path}, path ∈ [a.base.root, a.base.bareRoot] → a.base.underRoot path = "" := by
    intro path hmem
    apply underRoot_of_root
    simp only [List.mem_cons, List.not_mem_nil, or_false] at hmem ⊢
    exact Or.inr (Or.inr hmem)
  refine ⟨?_, ?_, ?_, ?_, ?_⟩
  · by_cases husual : a.base.IsUsual href
    · have htext := targetText_absolute hpath husual
      have hsame : a.base.resolve (a.base.absolute href) = a.base.resolve href := by
        rw [resolve, resolve, isWebAddress_absolute hpath, hweb, if_neg Bool.false_ne_true,
          if_neg Bool.false_ne_true, htext]
      exact iff_of_true hsame (Or.inl husual)
    · rw [IsUsual] at husual
      push Not at husual
      obtain ⟨query, rfl, hnamed⟩ := husual
      rw [resolve_absolute_bareRoot_query hpath query hnamed hweb]
      constructor
      · exact Or.inr
      · rintro (husual | herror)
        · exact absurd (husual query rfl) hnamed
        · exact herror
  · intro hmem uri hresolve
    exact (target_of_resolve hpath hweb hresolve).2.1 (hspelled hmem)
  · rw [absolute, hspelled List.mem_cons_self, String.append_empty]
  · rw [absolute, hspelled (List.mem_cons_of_mem _ List.mem_cons_self), String.append_empty]
  · intro query
    constructor
    · have hroot : a.base.root = a.base.bareRoot → a.base.root = "" := by
        intro hsame
        have hlast := Text.getLast?_dropTrailing '/' a.base.root
        rw [← bareRoot, ← hsame, getLast?_root] at hlast
        exact absurd rfl hlast
      rw [absolute, underRoot_append_query hpath, withoutRoot_eq_underRoot hpath hroot,
        hspelled List.mem_cons_self]
      simp only [String.append_assoc, String.empty_append]
    · rw [absolute_bareRoot_query hpath, doubledRoot]
      simp only [String.append_assoc]

/-- The root twice in an href and again in its query, and a query that no address has. -/
theorem resolve_absolute_eq_iff_queries :
    let base : Uri := ⟨"https", "dav.example", ⟨"/dav", none⟩⟩
    Account.atBase "https://dav.example/dav" none = .ok { base } ∧
      isWebAddress "/dav//dav?at=/dav?x" = false ∧
      base.resolve (base.absolute "/dav//dav?at=/dav?x") = base.resolve "/dav//dav?at=/dav?x" ∧
      isWebAddress "/dav?a b" = false ∧
      base.resolve (base.absolute "/dav?a b") = base.resolve "/dav?a b" := by
  intro base
  have hbase : Account.atBase "https://dav.example/dav" none = .ok { base } := by rfl
  have husual : base.IsUsual "/dav//dav?at=/dav?x" := by
    intro query hquery
    have hcut : Text.cut '?' (base.bareRoot ++ "?" ++ query) = (base.bareRoot, some query) :=
      Text.cut_append (by decide) query
    have hpath : (Text.cut '?' "/dav//dav?at=/dav?x").1 = base.bareRoot := by rw [hquery, hcut]
    exact absurd hpath (by decide)
  have herror : base.resolve "/dav?a b" = .error (.badUri none) :=
    (resolve_eq_error_iff (by decide)).2 ⟨by decide, rfl⟩
  exact ⟨hbase, by decide, (resolve_absolute_eq_iff hbase (by decide)).1.2 (Or.inl husual),
    by decide, (resolve_absolute_eq_iff hbase (by decide)).1.2 (Or.inr ⟨_, herror⟩)⟩

/-- The root without its slash in front of a query: its form of the server leads to a resource
below the root that has the name of the root. -/
theorem absolute_doubles_root :
    let base : Uri := ⟨"http", "dav.local:54321", ⟨"/dav/", none⟩⟩
    Account.atBase "http://dav.local:54321/dav/" none = .ok { base } ∧
      isWebAddress "/dav?x" = false ∧
      base.absolute "/dav?x" = "/dav/dav?x" ∧
      base.resolve "/dav?x" = .ok { base with target := ⟨"/dav/", some "x"⟩ } ∧
      base.resolve (base.absolute "/dav?x") = .ok { base with target := ⟨"/dav/dav", some "x"⟩ } ∧
      base.resolve (base.absolute "/dav?x") ≠ base.resolve "/dav?x" := by
  intro base
  have hbase : Account.atBase "http://dav.local:54321/dav/" none = .ok { base } := by rfl
  have hkept : base.resolve "/dav?x" = .ok { base with target := ⟨"/dav/", some "x"⟩ } :=
    (resolve_eq_ok_iff (by decide)).2 ⟨_, by decide, rfl⟩
  have hserver : base.resolve (base.absolute "/dav?x") =
      .ok { base with target := ⟨"/dav/dav", some "x"⟩ } :=
    (resolve_eq_ok_iff (by decide)).2 ⟨_, by decide, rfl⟩
  refine ⟨hbase, by decide, by decide, hkept, hserver, ?_⟩
  rw [hkept, hserver]
  decide

end Uri
end PimDav
