import PimDav.Proofs.Client.Leads

/-!
# Where the credentials go

Every request shows the credentials.  In an operation that needs no href they stay
on the server of the base exactly when no href that is followed leads away from
it.  Two kinds do: an href whose path is the root with an address of another
server behind it, and the href of a listed notification on another server, which
is asked for without taking the root away.
-/

namespace PimDav

open Http (Request)

/-- The requests of attempts stay on the server of the base when no href does otherwise. -/
theorem Attempt.forall_requests_isOnServer_iff
    (a : Account)
    (tried : List Attempt) :
    (∀ r ∈ tried.flatMap fun t => Exchange.requests a t.call, a.base.IsOnServer r.uri) ↔
      ∀ t ∈ tried, ¬ a.base.LeavesServer t.call.href := by
  constructor
  · intro hall t ht
    rw [← Uri.forall_resolve_isOnServer_iff]
    intro uri hresolve
    exact hall (Exchange.request a t.call uri)
      (List.mem_flatMap.2 ⟨t, ht, Exchange.mem_requests.2 ⟨uri, hresolve, rfl⟩⟩)
  · intro hall r hr
    obtain ⟨t, ht, hr⟩ := List.mem_flatMap.1 hr
    obtain ⟨uri, hresolve, rfl⟩ := Exchange.mem_requests.1 hr
    have hstays := hall t ht
    rw [← Uri.forall_resolve_isOnServer_iff] at hstays
    exact hstays uri hresolve

namespace Operation

theorem not_leavesServer_entrance
    (base : Uri)
    (operation : Operation) :
    ¬ base.LeavesServer operation.entrance := by
  have hkind : ∀ k : Kind, Uri.isWebAddress (k.vocabulary.rootSegment ++ "/") = false := by
    intro k
    cases k <;> decide
  apply Uri.not_leavesServer_of_not_web
  cases operation with
  | discover k => exact hkind k
  | listFolders k => exact hkind k
  | checkHealth => exact hkind .event
  | notificationHome => exact hkind .event
  | listNotifications topics => exact hkind .event
  | _ => rfl

/-- The attempts of an operation stay on the server of the base when the leads do. -/
theorem forall_attempts_iff
    {operation : Operation}
    (hnone : operation.needsNoHref = true)
    (a : Account)
    (v : Server) :
    (∀ t ∈ (operation.plan a.base).attempts a v, ¬ a.base.LeavesServer t.call.href) ↔
      ∀ lead ∈ operation.leads ((operation.plan a.base).trace a v),
        ¬ lead.LeadsAway a.base := by
  rw [← List.forall_mem_map (P := fun href => ¬ a.base.LeavesServer href),
    hrefs_attempts hnone, List.forall_mem_cons, List.forall_mem_map]
  constructor
  · rintro ⟨-, hall⟩ lead hlead
    rw [← Lead.leavesServer_href_iff]
    exact hall lead hlead
  · intro hall
    refine ⟨not_leavesServer_entrance a.base operation, ?_⟩
    intro lead hlead
    rw [Lead.leavesServer_href_iff]
    exact hall lead hlead

/-- Whatever the server answers, an operation without an href of the caller sends its
credentials with every request, and all of them stay on the server of the base exactly
when no lead goes away from it. -/
theorem credentials_stay_iff
    (operation : Operation)
    (hnone : operation.needsNoHref = true)
    (a : Account)
    (s : Session) :
    ∃ requests : List Request,
      ((operation.plan a.base).run a s).2.server.received = s.server.received ++ requests ∧
        (∀ r ∈ requests, ∀ credentials, a.credentials = some credentials →
          credentials.field ∈ r.headers.fields) ∧
        ((∀ r ∈ requests, a.base.IsOnServer r.uri) ↔
          ∀ lead ∈ operation.leads ((operation.plan a.base).trace a s.server),
            ¬ lead.LeadsAway a.base) := by
  refine ⟨_, (Plan.leadTo_run a (operation.plan a.base) s).received, ?_, ?_⟩
  · intro r hr credentials hcredentials
    split at hr
    case isFalse => cases hr
    case isTrue =>
      obtain ⟨t, -, hr⟩ := List.mem_flatMap.1 hr
      exact Exchange.credentials_mem hr hcredentials
  · cases hreachable : s.server.reachable with
    | true =>
      rw [if_pos rfl, Attempt.forall_requests_isOnServer_iff]
      exact forall_attempts_iff hnone a s.server
    | false =>
      -- Only the entrance was tried, so no lead was followed.
      have hlength := Plan.length_attempts_unreachable hreachable a (operation.plan a.base)
      have hhrefs := congrArg List.length (hrefs_attempts hnone a s.server)
      rw [List.length_map, List.length_cons, List.length_map] at hhrefs
      have hleads : operation.leads ((operation.plan a.base).trace a s.server) = [] :=
        List.length_eq_zero_iff.1 (by omega)
      rw [hleads]
      simp

/-- An answer with one response: an href on another server, and one property. -/
def answerOf
    (property : String)
    (inside : String) : Http.Reply :=
  let pieces :=
    ["<?xml?><multistatus><response>", "<href>http://other.example/</href>", "<propstat><prop><",
      property, ">", inside, "</", property, "></prop></propstat>", "</response></multistatus>"]
  .answer { code := 207, body := .plain (pieces.flatMap Utf8.encode) }

/-- An ordinary principal is asked for its home on the server of the base. -/
theorem credentials_stay_with_principal :
    let a : Account := { base := ⟨"https", "dav.example", ⟨"/dav/", none⟩⟩ }
    let reply := answerOf "current-user-principal" "<href>https://dav.example/dav/p/</href>"
    let s : Session := { server := { replies := [reply] } }
    let received := (((discover .event).plan a.base).run a s).2.server.received
    received.length = 2 ∧ ∀ r ∈ received, a.base.IsOnServer r.uri := by
  intro a reply s received
  have hlength : received.length = 2 := by decide +kernel
  have hleads : (discover .event).leads (((discover .event).plan a.base).trace a s.server) =
      [.kept "https://dav.example/dav/p/"] := by
    decide +kernel
  obtain ⟨requests, hreceived, -, hstay⟩ := credentials_stay_iff (discover .event) rfl a s
  have hreceived : received = requests := hreceived
  refine ⟨hlength, ?_⟩
  rw [hreceived, hstay, hleads]
  intro lead hlead
  obtain rfl := List.mem_singleton.1 hlead
  rw [← Lead.leavesServer_href_iff]
  exact Uri.not_leavesServer_of_not_web (by decide +kernel)

/-- The credentials go to another server when it stands behind the root in the href of
the principal, and when the href of a listed notification names it. -/
theorem credentials_leave :
    let jdoe : Credentials := ⟨"jdoe", "secret"⟩
    let a : Account :=
      { base := ⟨"https", "dav.example", ⟨"/dav/", none⟩⟩, credentials := some jdoe }
    let received (operation : Operation) (replies : List Http.Reply) : List Request :=
      ((operation.plan a.base).run a { server := { replies } }).2.server.received
    let behindRoot :=
      [answerOf "current-user-principal" "<href>/dav/http://other.example/</href>"]
    let listed :=
      [answerOf "current-user-principal" "<href>/dav/p/</href>",
        answerOf "notification-URL" "<href>/dav/n/</href>",
        answerOf "notificationtype" "<share-invite-notification/>"]
    (∃ r ∈ received (discover .event) behindRoot,
        ¬ a.base.IsOnServer r.uri ∧ jdoe.field ∈ r.headers.fields) ∧
      ∃ r ∈ received (listNotifications []) listed,
        ¬ a.base.IsOnServer r.uri ∧ jdoe.field ∈ r.headers.fields := by
  decide +kernel

end Operation
end PimDav
