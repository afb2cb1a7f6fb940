import PimDav.Client.Invitations
import PimDav.Proofs.Attempts
import PimDav.Proofs.Xml.Prolog

/-!
# Notifications with and without a declaration

A body with a declaration is read as markup when it is received, and any other one is handed
out as bytes.  The bytes of a notification are read as markup all the same, but later, by the
work that asked for them.  So there are two ways from a body to a notification, and a server
that leaves out the declaration must not be understood differently.
-/

namespace PimDav
namespace Client

open Exchange (Brings)
open Http (Answer Headers Receipt Received Reply)

/-- What a body that is not blank says of a notification. -/
def notificationOf
    (body : Bytes)
    (href : String) : Except Fault (Option Notification) :=
  match Xml.parse body with
  | .ok root => .ok (notificationIn? root href)
  | .error p => .error (.markup p)

/-- Once it is looked at, a body has been read as markup on either way. -/
theorem documentOf_receive
    {body : Bytes}
    (hshown : body.all Text.isBodyBlank = false)
    (code : Nat)
    (h : Headers) :
    (Exchange.receive body >>= fun received => documentOf ⟨code, h, received⟩) =
      match Xml.parse body with
      | .ok root => .ok (some root)
      | .error p => .error (.markup p) := by
  rw [Exchange.receive]
  cases hdeclared : Xml.isDeclared body with
  | true =>
    rw [if_pos rfl]
    cases Xml.parse body with
    | ok root => rfl
    | error p => rfl
  | false =>
    rw [if_neg Bool.false_ne_true]
    dsimp only [bind, Except.bind]
    cases hparse : Xml.parse body with
    | ok root => simp [documentOf, hshown, hparse]
    | error p => simp [documentOf, hshown, hparse]

/-- A notification is what the document of the one receipt holds. -/
theorem run_notificationAt
    (a : Account)
    (href : String)
    (s : Session) :
    ((notificationAt a.base href).run a s).1 =
      (Exchange.perform a (.bare "GET" href) s).1 >>= fun receipt =>
        (documentOf receipt).map fun root =>
          root.bind (notificationIn? · (a.base.relative href)) := by
  rw [notificationAt, Plan.bind_eq, Plan.call, Plan.andThen, Plan.run]
  cases Exchange.perform a (.bare "GET" href) s with
  | mk outcome later =>
    cases outcome with
    | error f => rfl
    | ok receipt =>
      dsimp only [bind, Except.bind]
      rw [Plan.andThen]
      cases documentOf receipt with
      | error f => rfl
      | ok root => rfl

/-- A body that is not blank is all that a notification depends on. -/
theorem run_notificationAt_of_brings
    {s : Session}
    {body : Bytes}
    (hbrings : Brings s body)
    (hshown : body.all Text.isBodyBlank = false)
    (a : Account)
    (href : String) :
    ((notificationAt a.base href).run a s).1 =
      a.base.resolve href >>= fun _ => notificationOf body (a.base.relative href) := by
  obtain ⟨code, headers, hperform⟩ := Exchange.perform_of_brings hbrings a (.bare "GET" href)
  -- What is found in the document is looked for after both ways have met.
  have hmeet :
      ∀ (received : Except Fault Received) (g : Received → Receipt)
        (k : Option Xml.Element → Option Notification),
        (received.map g >>= fun receipt => (documentOf receipt).map k) =
          (received >>= fun body => documentOf (g body)).map k := by
    intro received g k
    cases received <;> rfl
  rw [run_notificationAt, hperform, Http.Call.bare]
  cases a.base.resolve href with
  | error f => rfl
  | ok uri =>
    have hread := documentOf_receive hshown code headers
    dsimp only [bind, Except.bind] at hmeet hread ⊢
    rw [hmeet, hread, notificationOf]
    cases Xml.parse body with
    | ok root => simp only [Except.map, Option.bind_some]
    | error p => rfl

/-- A declaration in front of a body that is not blank changes nothing: the notification is the
same, or there is none both times, or the same is wrong with the markup.  The body may begin
with anything, be it a byte order mark, stray text, comments or a doctype. -/
theorem same_notification_with_declaration
    {s t : Session}
    {body : Bytes}
    (hshown : body.all Text.isBodyBlank = false)
    (hplain : Brings s body)
    (hdeclared : Brings t (Utf8.encode Xml.declaration ++ body))
    (a : Account)
    (href : String) :
    let plain := ((notificationAt a.base href).run a s).1
    let declared := ((notificationAt a.base href).run a t).1
    declared = plain ∧
      plain = a.base.resolve href >>= fun _ => notificationOf body (a.base.relative href) := by
  intro plain declared
  have hlonger : (Utf8.encode Xml.declaration ++ body).all Text.isBodyBlank = false := by
    rw [List.all_append, hshown, Bool.and_false]
  have hparse : Xml.parse (Utf8.encode Xml.declaration ++ body) = Xml.parse body :=
    Xml.parse_append_of_isProlog Xml.isProlog_declaration body
  have hsame : ∀ href,
      notificationOf (Utf8.encode Xml.declaration ++ body) href = notificationOf body href := by
    intro href
    rw [notificationOf, notificationOf, hparse]
  have hread : plain = _ := run_notificationAt_of_brings hplain hshown a href
  have hreadDeclared : declared = _ := run_notificationAt_of_brings hdeclared hlonger a href
  refine ⟨?_, hread⟩
  rw [hreadDeclared, hread]
  simp only [hsame]

/-- Behind a byte order mark, stray text, a comment and a doctype there is a notification. -/
theorem same_notification_with_declaration_thorny :
    let a : Account := { base := ⟨"https", "dav.example", ⟨"/dav/", none⟩⟩ }
    let body : Bytes := [0xEF, 0xBB, 0xBF] ++ Utf8.encode
      "stray &amp; <!-- <a> --><!DOCTYPE n [<!ENTITY e '>'>]><n:notification xmlns:n='N'/>"
    let session := fun (body : Bytes) =>
      ({ server := { replies := [.answer { body := .plain body }] } } : Session)
    let fetched := fun (body : Bytes) => ((notificationAt a.base "n/1").run a (session body)).1
    Xml.isDeclared body = false ∧
      fetched (Utf8.encode Xml.declaration ++ body) = fetched body ∧
      fetched body = .ok (some { href := "n/1" }) := by
  intro a body session fetched
  have hbrings : ∀ body : Bytes, Brings (session body) body := fun body =>
    ⟨{ body := .plain body }, [], rfl, rfl, rfl, rfl⟩
  obtain ⟨hsame, hread⟩ :=
    same_notification_with_declaration (by decide +kernel) (hbrings body) (hbrings _) a "n/1"
  refine ⟨by decide +kernel, hsame, hread.trans ?_⟩
  exact eq_ok_of_toOption (by decide +kernel)

end Client
end PimDav
