import PimDav.Plan
import PimDav.Proofs.Exchange

/-!
# Runs of plans

A run adds to what a session has been through and does not look at it, and a reply with
which no call can succeed is the last one that a run sees.
-/

namespace PimDav

open Http (Reply Request)

namespace Plan

variable {α : Type}

/-- The plan after some entries. -/
def noting : List Entry → Plan α → Plan α
  | [], p => p
  | entry :: entries, p => note entry (noting entries p)

theorem run_noting
    (a : Account)
    (entries : List Entry)
    (p : Plan α)
    (s : Session) :
    (noting entries p).run a s = p.run a (s.note entries) := by
  induction entries generalizing s with
  | nil => rw [noting, Session.note_nil]
  | cons entry entries ih =>
    rw [noting, run, ih, Session.note_note]
    rfl

/-- A plan does not look at what was before it, and adds to it. -/
theorem run_after
    (a : Account)
    (p : Plan α)
    (s : Session)
    (received : List Request)
    (log : List Entry) :
    p.run a (s.after received log) = ((p.run a s).1, (p.run a s).2.after received log) := by
  induction p generalizing s with
  | done value => rfl
  | fail f => rfl
  | note entry next ih =>
    rw [run, run, Session.note_after]
    exact ih (s.note [entry])
  | ask call complaints next ih =>
    rw [run, run, Exchange.perform_after]
    cases Exchange.perform a call s with
    | mk outcome later =>
      cases outcome with
      | ok receipt => exact ih receipt later
      | error f => exact congrArg (Prod.mk _) (later.note_after received log (complaints f))

/-- A reply with which every call fails is the last one that a plan sees, if it comes to
see it, and the plan fails with it. -/
theorem run_of_failing_reply
    {a : Account}
    {reply : Reply}
    {f : Fault}
    (hfails : ∀ c uri, a.base.resolve c.href = .ok uri → Exchange.outcome a c reply = .error f)
    (p : Plan α)
    {s : Session}
    {before after : List Reply}
    (hreachable : s.server.reachable = true)
    (hreplies : s.server.replies = before ++ reply :: after) :
    ((p.run a s).1 = .error f ∧ (p.run a s).2.server.replies = after) ∨
      reply :: after <:+ (p.run a s).2.server.replies := by
  induction p generalizing s before with
  | done value => exact Or.inr (hreplies ▸ List.suffix_append _ _)
  | fail g => exact Or.inr (hreplies ▸ List.suffix_append _ _)
  | note entry next ih => exact ih hreachable hreplies
  | ask call complaints next ih =>
    have houtcome := Exchange.perform_fst a call s
    have hserver : ∀ later : Session, ∀ entries,
        (later.note entries).server = later.server := fun _ _ => rfl
    rw [run]
    cases hresolve : a.base.resolve call.href with
    | error g =>
      right
      simp only [Exchange.perform, hresolve, hserver, hreplies]
      exact List.suffix_append _ _
    | ok uri =>
      obtain ⟨hlater, hrest⟩ := Exchange.replies_perform (c := call) hresolve hreachable
      rw [hreplies] at hrest
      cases before with
      | nil =>
        rw [Server.next_of_replies hreachable hreplies, hfails call uri hresolve] at houtcome
        left
        cases hdone : Exchange.perform a call s with
        | mk outcome later =>
          rw [hdone] at houtcome hrest
          dsimp only at houtcome hrest
          subst houtcome
          exact ⟨rfl, hrest⟩
      | cons first before =>
        rw [List.cons_append, List.tail_cons] at hrest
        cases hdone : Exchange.perform a call s with
        | mk outcome later =>
          rw [hdone] at hlater hrest
          cases outcome with
          | ok receipt => exact ih receipt hlater hrest
          | error g =>
            right
            dsimp only at hrest ⊢
            rw [hserver, hrest]
            exact List.suffix_append _ _

end Plan
end PimDav
