import PimDav.Proofs.Uri.Server

/-!
# Hrefs stay below the base

Whatever an href looks like, unless it is an address of the web it is resolved on the server
of the base, at the path of the base itself or below the root.  Only the root and slashes are
taken away in front of it, so its query is the one that it was written with: it begins at the
first question mark, if that is no part of a fragment, and ends where a fragment begins.
-/

namespace PimDav

namespace Text

theorem takeWhile_bne_append
    {sep : Char}
    {front : List Char}
    (hfront : sep ∉ front)
    (rest : List Char) :
    (front ++ rest).takeWhile (· != sep) = front ++ rest.takeWhile (· != sep) := by
  apply List.takeWhile_append_of_pos
  intro c hc
  rw [bne_iff_ne]
  rintro rfl
  exact hfront hc

/-- What is taken up to a separator ends at the separator or is all. -/
theorem takeWhile_bne_eq_iff
    {sep : Char}
    {cs front : List Char} :
    cs.takeWhile (· != sep) = front ↔
      sep ∉ front ∧ ∃ after, cs = front ++ after ∧ ∀ c ∈ after.head?, c = sep := by
  constructor
  · rintro rfl
    refine ⟨?_, cs.dropWhile (· != sep), List.takeWhile_append_dropWhile.symm, ?_⟩
    · intro hmem
      have hkept := List.all_eq_true.1 (List.all_takeWhile (p := (· != sep))) sep hmem
      exact bne_iff_ne.1 hkept rfl
    · intro c hc
      have hfirst := List.head?_dropWhile_not (· != sep) cs
      rw [hc] at hfirst
      exact bne_eq_false_iff_eq.1 hfirst
  · rintro ⟨hfront, after, rfl, hafter⟩
    have hend : after.takeWhile (· != sep) = [] := by
      cases after with
      | nil => rfl
      | cons c after =>
        obtain rfl := hafter c rfl
        exact List.takeWhile_cons_of_neg (by simp)
    rw [takeWhile_bne_append hfront, hend, List.append_nil]

/-- A cut is made at the first separator. -/
theorem cutWhere_snd_eq_some_iff
    {sep : Char}
    {cs after : List Char} :
    (cutWhere (· == sep) cs).2 = some after ↔
      ∃ before, cs = before ++ sep :: after ∧ sep ∉ before := by
  constructor
  · intro hafter
    have hcut : cutWhere (· == sep) cs = (cs.takeWhile fun c => !(c == sep), some after) :=
      Prod.ext (cutWhere_fst _ cs) hafter
    obtain ⟨c, hc, hwhole⟩ := cutWhere_some hcut
    obtain rfl : c = sep := beq_iff_eq.1 hc
    refine ⟨_, hwhole, ?_⟩
    intro hmem
    exact absurd (List.all_eq_true.1 List.all_takeWhile c hmem) (by simp)
  · rintro ⟨before, rfl, hbefore⟩
    rw [cutWhere_append_of_not_mem hbefore, cutWhere, beq_self_eq_true, if_pos rfl]

/-- There is a cut where there is a separator. -/
theorem isSome_cutWhere_snd_iff
    {sep : Char}
    {cs : List Char} :
    (cutWhere (· == sep) cs).2.isSome = true ↔ sep ∈ cs := by
  rw [Option.isSome_iff_exists]
  constructor
  · rintro ⟨after, hafter⟩
    obtain ⟨before, rfl, -⟩ := cutWhere_snd_eq_some_iff.1 hafter
    exact List.mem_append_right _ List.mem_cons_self
  · intro hmem
    obtain ⟨before, after, rfl, hbefore⟩ := List.eq_append_cons_of_mem hmem
    exact ⟨after, cutWhere_snd_eq_some_iff.2 ⟨before, rfl, hbefore⟩⟩

end Text

namespace Target

/-- Characters among which nothing ends a path. -/
def ArePlain (cs : List Char) : Prop :=
  ∀ c ∈ cs, c ≠ '?' ∧ c ≠ '#'

/-- The part before a query and the query, up to a fragment. -/
def parts (cs : List Char) : List Char × Option (List Char) :=
  Text.cutWhere (· == '?') (cs.takeWhile (· != '#'))

/-- What is plain goes in front of the first part. -/
theorem parts_append
    {front : List Char}
    (hfront : ArePlain front)
    (rest : List Char) :
    parts (front ++ rest) = (front ++ (parts rest).1, (parts rest).2) := by
  rw [parts, Text.takeWhile_bne_append fun hmem => (hfront '#' hmem).2 rfl,
    Text.cutWhere_append_of_not_mem fun hmem => (hfront '?' hmem).1 rfl]
  rfl

/-- A query, or the end, leaves nothing for the first part. -/
theorem parts_fst_of_head
    {rest : List Char}
    (hrest : ∀ c ∈ rest.head?, c = '?') :
    (parts rest).1 = [] := by
  cases rest with
  | nil => rfl
  | cons c rest =>
    obtain rfl := hrest c rfl
    simp [parts]

/-- A text that is read has the path and the query of its characters. -/
theorem ofChars?_append
    {front rest : List Char}
    {t : Target}
    (hfront : ArePlain front)
    (hsome : front ≠ [])
    (hread : ofChars? (front ++ rest) = some t) :
    t.path = String.ofList (front ++ (parts rest).1) ∧
      t.query = (parts rest).2.map String.ofList := by
  obtain ⟨path, query, hparts, -, hpath, hquery⟩ := ofChars?_eq_some hread
  have hboth : (path, query) = (front ++ (parts rest).1, (parts rest).2) :=
    hparts.symm.trans (parts_append hfront rest)
  obtain ⟨rfl, rfl⟩ := Prod.mk.inj hboth
  have hnonempty : (front ++ (parts rest).1).isEmpty = false := by
    cases front with
    | nil => exact absurd rfl hsome
    | cons c front => rfl
  rw [hnonempty, if_neg Bool.false_ne_true] at hpath
  exact ⟨hpath, hquery⟩

/-- A text that begins with a slash is read from its first character on. -/
theorem ofChars?_of_read?
    {s : String}
    {t : Target}
    {cs : List Char}
    (hslash : s.toList = '/' :: cs)
    (hread : read? s = some t) :
    ofChars? s.toList = some t := by
  unfold read? at hread
  rw [hslash] at hread ⊢
  split at hread
  · cases hread
  · simpa using hread

end Target

namespace Uri

variable {base : Uri}

/-- The query of an href: what stands between its first question mark and the number sign
after it, or the end. A question mark behind a number sign starts no query. -/
def HasQuery (href query : String) : Prop :=
  ∃ before after,
    href.toList = before ++ '?' :: (query.toList ++ after) ∧
    Target.ArePlain before ∧
    '#' ∉ query.toList ∧
    ∀ c ∈ after.head?, c = '#'

/-- The query of an href is the second part of its characters. -/
theorem hasQuery_iff
    {href query : String} :
    HasQuery href query ↔ (Target.parts href.toList).2 = some query.toList := by
  rw [Target.parts, Text.cutWhere_snd_eq_some_iff]
  simp only [Text.takeWhile_bne_eq_iff]
  constructor
  · rintro ⟨before, after, hhref, hbefore, hquery, hafter⟩
    refine ⟨before, ⟨?_, after, ?_, hafter⟩, fun hmem => (hbefore '?' hmem).1 rfl⟩
    · rw [List.mem_append, List.mem_cons, not_or, not_or]
      exact ⟨fun hmem => (hbefore '#' hmem).2 rfl, by decide, hquery⟩
    · rw [hhref, List.append_assoc, List.cons_append]
  · rintro ⟨before, ⟨hkept, after, hhref, hafter⟩, hbefore⟩
    simp only [List.mem_append, List.mem_cons, not_or] at hkept
    refine ⟨before, after, ?_, ?_, hkept.2.2, hafter⟩
    · rw [hhref, List.append_assoc, List.cons_append]
    · rintro c hc
      exact ⟨fun h => hbefore (h ▸ hc), fun h => hkept.1 (h ▸ hc)⟩

/-- A question mark that no number sign stands before starts a query. -/
theorem exists_hasQuery_iff
    {href : String} :
    (∃ query, HasQuery href query) ↔
      ∃ before after, href.toList = before ++ '?' :: after ∧ '#' ∉ before := by
  constructor
  · rintro ⟨query, before, after, hhref, hbefore, -, -⟩
    exact ⟨before, query.toList ++ after, hhref, fun hmem => (hbefore '#' hmem).2 rfl⟩
  · rintro ⟨before, after, hhref, hbefore⟩
    have hmark : '?' ∈ href.toList.takeWhile (· != '#') := by
      rw [hhref, Text.takeWhile_bne_append hbefore, List.takeWhile_cons_of_pos (by decide)]
      exact List.mem_append_right _ List.mem_cons_self
    obtain ⟨query, hquery⟩ := Option.isSome_iff_exists.1 (Text.isSome_cutWhere_snd_iff.2 hmark)
    exact ⟨String.ofList query, hasQuery_iff.2 (by rw [String.toList_ofList]; exact hquery)⟩

/-- Taking slashes away in front of a text takes away nothing else. -/
theorem dropLeading_parts
    (s : String) :
    ∃ dropped, s.toList = dropped ++ (Text.dropLeading '/' s).toList ∧ Target.ArePlain dropped := by
  refine ⟨s.toList.takeWhile (· == '/'), ?_, ?_⟩
  · rw [Text.dropLeading, String.toList_ofList, List.takeWhile_append_dropWhile]
  · intro c hc
    obtain rfl : c = '/' := beq_iff_eq.1 (List.all_eq_true.1 List.all_takeWhile c hc)
    decide

/-- What an href adds to the root is the href without the root and slashes in front. -/
theorem underRoot_parts
    (hpath : Target.IsPath base.path)
    (href : String) :
    ∃ dropped, href.toList = dropped ++ (base.underRoot href).toList ∧ Target.ArePlain dropped := by
  have hroot : Target.ArePlain base.root.toList := (isPath_root hpath).plain
  rw [underRoot]
  split
  case isTrue his =>
    refine ⟨href.toList, (List.append_nil _).symm, ?_⟩
    intro c hc
    apply hroot
    rw [isRoot, Bool.or_eq_true, beq_iff_eq, beq_iff_eq] at his
    rcases his with rfl | rfl
    · exact hc
    · exact (dropTrailing_isPrefix '/' base.root).subset hc
  case isFalse =>
    split
    case isFalse => exact dropLeading_parts href
    case isTrue =>
      cases hafter : Text.after? base.root href with
      | none => exact dropLeading_parts href
      | some rest =>
        obtain ⟨slashes, hrest, hslashes⟩ := dropLeading_parts rest
        refine ⟨base.root.toList ++ slashes, ?_, List.forall_mem_append.2 ⟨hroot, hslashes⟩⟩
        rw [Text.after?_eq_some_iff.1 hafter, String.toList_append, hrest, List.append_assoc,
          Option.getD_some, ← hrest]

/-- An address that is not taken as it is has the target that was made for it. -/
theorem resolve_eq_ok_iff
    {href : String}
    {uri : Uri}
    (hweb : isWebAddress href = false) :
    base.resolve href = .ok uri ↔
      ∃ target, Target.read? (base.targetText href) = some target ∧ uri = { base with target } := by
  rw [resolve, hweb, if_neg Bool.false_ne_true]
  cases Target.read? (base.targetText href) with
  | none => simp
  | some target => simp [eq_comm]

/-- The text of a target is the path of the base or the root, followed by what is left of the
href, which begins with its query if nothing of its path is left. -/
theorem targetText_parts
    (hpath : Target.IsPath base.path)
    (href : String) :
    ∃ front dropped rest,
      href.toList = dropped ++ rest ∧
      Target.ArePlain dropped ∧
      (base.targetText href).toList = front.toList ++ rest ∧
      Target.IsPath front ∧
      (base.underRoot (Text.cut '?' href).1 = "" →
        front = base.path ∧ ∀ c ∈ rest.head?, c = '?') ∧
      (base.underRoot (Text.cut '?' href).1 ≠ "" → front = base.root) := by
  obtain ⟨dropped, hbefore, hdropped⟩ := underRoot_parts hpath (Text.cut '?' href).1
  have hwhole := congrArg String.toList (Text.cut_whole '?' href)
  rw [String.toList_append, hbefore, List.append_assoc] at hwhole
  rw [targetText]
  generalize hquery : ((Text.cut '?' href).2.map ("?" ++ ·)).getD "" = query at hwhole ⊢
  have hquestion : ∀ c ∈ query.toList.head?, c = '?' := by
    rw [← hquery]
    cases (Text.cut '?' href).2 with
    | none =>
      intro c hc
      cases hc
    | some q =>
      intro c hc
      simpa using hc.symm
  cases hrest : (base.underRoot (Text.cut '?' href).1).isEmpty with
  | true =>
    have hnone := String.isEmpty_iff.1 hrest
    rw [hnone] at hwhole
    refine ⟨base.path, dropped, query.toList, hwhole.symm, hdropped, ?_, hpath,
      fun _ => ⟨rfl, hquestion⟩, fun hsome => absurd hnone hsome⟩
    rw [if_pos rfl, String.toList_append]
  | false =>
    have hsome : base.underRoot (Text.cut '?' href).1 ≠ "" := by
      intro hnone
      rw [hnone] at hrest
      cases hrest
    refine ⟨base.root, dropped, _, hwhole.symm, hdropped, ?_, isPath_root hpath,
      fun hnone => absurd hnone hsome, fun _ => rfl⟩
    rw [if_neg Bool.false_ne_true, String.toList_append, String.toList_append, List.append_assoc]

/-- Where an href leads that is no address of the web: its query stays, and its path is the
path of the base if the href adds nothing to the root. -/
theorem target_of_resolve
    (hpath : Target.IsPath base.path)
    {href : String}
    {uri : Uri}
    (hweb : isWebAddress href = false)
    (hresolve : base.resolve href = .ok uri) :
    (∀ query, uri.target.query = some query ↔ HasQuery href query) ∧
      (base.underRoot (Text.cut '?' href).1 = "" → uri.path = base.path) ∧
      (base.underRoot (Text.cut '?' href).1 ≠ "" → ∃ rest, uri.path = base.root ++ rest) := by
  obtain ⟨target, hread, rfl⟩ := (resolve_eq_ok_iff hweb).1 hresolve
  obtain ⟨front, dropped, rest, hhref, hdropped, htext, hfront, hnone, hsome⟩ :=
    targetText_parts hpath href
  obtain ⟨cs, hslash⟩ := hfront.slash
  have hchars := Target.ofChars?_of_read? (by rw [htext, hslash]; rfl) hread
  rw [htext] at hchars
  have hfirst : front.toList ≠ [] := by
    rw [hslash]
    exact List.cons_ne_nil _ _
  obtain ⟨htargetPath, htargetQuery⟩ := Target.ofChars?_append hfront.plain hfirst hchars
  refine ⟨?_, ?_, ?_⟩
  · intro query
    have hquery : target.query = some query ↔ (Target.parts rest).2 = some query.toList := by
      rw [htargetQuery, Option.map_eq_some_iff]
      constructor
      · rintro ⟨cs, hcs, rfl⟩
        rw [hcs, String.toList_ofList]
      · intro hcs
        exact ⟨query.toList, hcs, String.ofList_toList⟩
    rw [hasQuery_iff, hhref, Target.parts_append hdropped]
    exact hquery
  · intro hempty
    obtain ⟨rfl, hquestion⟩ := hnone hempty
    rw [Target.parts_fst_of_head hquestion, List.append_nil, String.ofList_toList] at htargetPath
    exact htargetPath
  · intro hmore
    obtain rfl := hsome hmore
    rw [String.ofList_append, String.ofList_toList] at htargetPath
    exact ⟨_, htargetPath⟩

/-- Nothing that is added to the root begins with a slash. -/
theorem head?_underRoot
    (base : Uri)
    (href : String) :
    (base.underRoot href).toList.head? ≠ some '/' := by
  have hdropped : ∀ cs : List Char, (cs.dropWhile (· == '/')).head? ≠ some '/' := by
    intro cs hslash
    have hfirst := List.head?_dropWhile_not (· == '/') cs
    rw [hslash] at hfirst
    exact absurd hfirst (by decide)
  rw [underRoot]
  split
  · intro hslash
    cases hslash
  · rw [Text.dropLeading, String.toList_ofList]
    exact hdropped _

/-- The spellings of the root, and no path at all, add nothing to the root. -/
theorem underRoot_of_root
    {path : String}
    (hroot : path ∈ ["", "/", base.root, Text.dropTrailing '/' base.root]) :
    base.underRoot path = "" := by
  have hsuffix := base.underRoot_isSuffix path
  have hfirst := base.head?_underRoot path
  have hrootPath : base.isRoot path = true → base.underRoot path = "" := by
    intro his
    rw [underRoot, his, if_pos rfl]
  simp only [List.mem_cons, List.not_mem_nil, or_false] at hroot
  rcases hroot with rfl | rfl | rfl | rfl
  · exact String.toList_eq_nil_iff.1 (List.suffix_nil.1 hsuffix)
  · rcases List.suffix_cons_iff.1 hsuffix with hslash | hnone
    · rw [hslash] at hfirst
      exact absurd rfl hfirst
    · exact String.toList_eq_nil_iff.1 (List.suffix_nil.1 hnone)
  · exact hrootPath (by simp [isRoot])
  · exact hrootPath (by simp [isRoot])

/-- Unless it is an address of the web, an href leads to the server of the base, to the path of
the base or below the root. Its query is exactly what stands between the first question mark
and a fragment, and the root in any spelling leads to the path of the base. -/
theorem resolve_stays_below
    {s : String}
    {credentials : Option Credentials}
    {a : Account}
    (hbase : Account.atBase s credentials = .ok a)
    {href : String}
    {uri : Uri}
    (hweb : isWebAddress href = false)
    (hresolve : a.base.resolve href = .ok uri) :
    uri.scheme = a.base.scheme ∧
      uri.authority = a.base.authority ∧
      (uri.path = a.base.path ∨ ∃ rest, uri.path = a.base.root ++ rest) ∧
      (uri.target.query.isSome = true ↔
        ∃ before after, href.toList = before ++ '?' :: after ∧ '#' ∉ before) ∧
      (∀ query, uri.target.query = some query ↔ HasQuery href query) ∧
      ((Text.cut '?' href).1 ∈ ["", "/", a.base.root, Text.dropTrailing '/' a.base.root] →
        uri.path = a.base.path) := by
  obtain ⟨hquery, hnone, hsome⟩ := target_of_resolve (isPath_of_atBase hbase) hweb hresolve
  obtain ⟨hscheme, hauthority⟩ := isOnServer_of_resolve hweb hresolve
  refine ⟨hscheme, hauthority, ?_, ?_, hquery, ?_⟩
  · rcases Decidable.em (a.base.underRoot (Text.cut '?' href).1 = "") with hempty | hmore
    · exact Or.inl (hnone hempty)
    · exact Or.inr (hsome hmore)
  · rw [Option.isSome_iff_exists, ← exists_hasQuery_iff]
    exact exists_congr hquery
  · intro hroot
    exact hnone (underRoot_of_root hroot)

/-- The root with a query and a question mark in the fragment, and a text that looks like
another server. -/
theorem resolve_stays_below_fragment :
    let base : Uri := ⟨"https", "dav.example", ⟨"/dav", none⟩⟩
    Account.atBase "https://dav.example/dav" none = .ok { base } ∧
      (∃ uri, base.resolve "/dav?a?b#c?d" = .ok uri ∧
        uri.path = "/dav" ∧ uri.target.query = some "a?b") ∧
      ∃ uri, base.resolve "//other.example/davis#x?y" = .ok uri ∧
        uri.authority = "dav.example" ∧ uri.target.query ≠ some "y" := by
  intro base
  have hbase : Account.atBase "https://dav.example/dav" none = .ok { base } := by rfl
  have hroot : base.resolve "/dav?a?b#c?d" = .ok { base with target := ⟨"/dav", some "a?b"⟩ } :=
    (resolve_eq_ok_iff (by decide)).2 ⟨_, by decide, rfl⟩
  have hserver : base.resolve "//other.example/davis#x?y" =
      .ok { base with target := ⟨"/dav/other.example/davis", none⟩ } :=
    (resolve_eq_ok_iff (by decide)).2 ⟨_, by decide, rfl⟩
  have hquery : HasQuery "/dav?a?b#c?d" "a?b" := hasQuery_iff.2 (by decide)
  have hnone : ¬HasQuery "//other.example/davis#x?y" "y" := by
    rw [hasQuery_iff]
    decide
  obtain ⟨-, -, -, -, hqueries, hpath⟩ := resolve_stays_below hbase (by decide) hroot
  obtain ⟨-, hauthority, -, -, hothers, -⟩ := resolve_stays_below hbase (by decide) hserver
  exact ⟨hbase, ⟨_, hroot, hpath (by decide), (hqueries "a?b").2 hquery⟩,
    ⟨_, hserver, hauthority, fun hsome => hnone ((hothers "y").1 hsome)⟩⟩

end Uri
end PimDav
