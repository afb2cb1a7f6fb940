import PimDav.Proofs.Uri.Root

/-!
# Hrefs that leave the server

An href is resolved on the server of the base unless it is an address of the web
that names another one.  Taking the root away protects against such an address,
but not against one that comes to light behind the root.
-/

namespace PimDav
namespace Uri

/-- An address on the server of the base: the scheme and the authority are the same. -/
def IsOnServer (base uri : Uri) : Prop :=
  uri.scheme = base.scheme ∧ uri.authority = base.authority

instance (base uri : Uri) : Decidable (base.IsOnServer uri) :=
  inferInstanceAs (Decidable (_ ∧ _))

/-- An href that is an address of the web on another server. -/
structure LeavesServer (base : Uri) (href : String) : Prop where
  web : isWebAddress href = true
  elsewhere : ∃ uri, read href = .ok uri ∧ ¬ base.IsOnServer uri

variable {base : Uri}

theorem not_leavesServer_of_not_web
    {href : String}
    (hweb : isWebAddress href = false) :
    ¬ base.LeavesServer href := by
  intro hleaves
  have hyes := hleaves.web
  rw [hweb] at hyes
  cases hyes

/-- Addresses of the web aside, everything is resolved on the server of the base. -/
theorem isOnServer_of_resolve
    {href : String}
    {uri : Uri}
    (hweb : isWebAddress href = false)
    (hresolve : base.resolve href = .ok uri) :
    base.IsOnServer uri := by
  rw [resolve, hweb, if_neg Bool.false_ne_true] at hresolve
  split at hresolve
  case h_1 target hread =>
    obtain rfl := Except.ok.inj hresolve
    exact ⟨rfl, rfl⟩
  case h_2 => cases hresolve

theorem resolve_of_web
    {href : String}
    {uri : Uri}
    (hweb : isWebAddress href = true) :
    base.resolve href = .ok uri ↔ read href = .ok uri := by
  rw [resolve, hweb, if_pos rfl]
  cases read href with
  | ok found => simp
  | error flaw => simp

theorem forall_resolve_isOnServer_iff
    (base : Uri)
    (href : String) :
    (∀ uri, base.resolve href = .ok uri → base.IsOnServer uri) ↔ ¬ base.LeavesServer href := by
  cases hweb : isWebAddress href with
  | false =>
    constructor
    · intro _
      exact not_leavesServer_of_not_web hweb
    · intro _ uri hresolve
      exact isOnServer_of_resolve hweb hresolve
  | true =>
    constructor
    · rintro hall ⟨-, uri, hread, helsewhere⟩
      exact helsewhere (hall uri ((resolve_of_web hweb).2 hread))
    · intro hstays uri hresolve
      apply Decidable.byContradiction
      intro helsewhere
      exact hstays ⟨hweb, uri, (resolve_of_web hweb).1 hresolve, helsewhere⟩

/-- The path of an href is no address that can be read. -/
theorem not_leavesServer_hrefPath
    (base : Uri)
    (href : String) :
    ¬ base.LeavesServer (hrefPath href) := by
  rintro ⟨hpathWeb, uri, hread, -⟩
  rw [hrefPath] at hpathWeb hread
  cases hweb : isWebAddress href with
  | false =>
    rw [hweb, if_neg Bool.false_ne_true, hweb] at hpathWeb
    cases hpathWeb
  | true =>
    rw [hweb, if_pos rfl] at hpathWeb hread
    cases hwhole : read href with
    | error flaw =>
      simp [hwhole] at hread
    | ok whole =>
      rw [hwhole] at hpathWeb
      obtain ⟨cs, hcs⟩ := (isPath_of_read hwhole).slash
      rw [isWebAddress, Text.beginsWith, Text.beginsWith, hcs] at hpathWeb
      cases hpathWeb

/-- An href that is kept relative to the root leaves the server exactly when its path
is the root followed by an address that does. -/
theorem leavesServer_relative_iff
    (base : Uri)
    (href : String) :
    base.LeavesServer (base.relative href) ↔
      ∃ rest, hrefPath href = base.root ++ rest ∧ base.LeavesServer rest := by
  constructor
  · intro hleaves
    cases hroot : base.isRoot (hrefPath href) with
    | true =>
      have hempty : base.relative href = "" := by rw [relative, hroot, if_pos rfl]
      rw [hempty] at hleaves
      exact absurd hleaves (not_leavesServer_of_not_web (by decide))
    | false =>
      have hrelative : base.relative href =
          (Text.after? base.root (hrefPath href)).getD (hrefPath href) := by
        rw [relative, hroot, if_neg Bool.false_ne_true]
      rw [hrelative] at hleaves
      cases hafter : Text.after? base.root (hrefPath href) with
      | none =>
        rw [hafter, Option.getD_none] at hleaves
        exact absurd hleaves (not_leavesServer_hrefPath base href)
      | some rest =>
        rw [hafter, Option.getD_some] at hleaves
        exact ⟨rest, Text.after?_eq_some_iff.1 hafter, hleaves⟩
  · rintro ⟨rest, hpath, hleaves⟩
    rw [relative_of_hrefPath hpath]
    exact hleaves

end Uri
end PimDav
