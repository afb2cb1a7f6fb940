import PimDav.Proofs.Client.LastHeaders
import PimDav.Proofs.Client.Twins

/-!
# What a client did before

A client remembers the headers of one exchange, and keeps items for those who work with it.
Neither finds its way into what it does next: with the same settings, and given the same
item to store, it does the same whatever it was used for before.
-/

namespace PimDav

open Http (Headers)

theorem Account.alike_self
    (a : Account) :
    a.Alike .ofAll .ofAll a where
  base := rfl
  timeout := rfl
  request := fun _ _ => rfl
  offWire := fun _ _ => rfl
  wire := fun _ _ => rfl

/-- Sessions that look the same to somebody who sees every request have the same server. -/
theorem Session.Alike.server_eq
    {withHeaders : Prop}
    {s t : Session}
    (hs : Session.Alike .ofAll .ofAll withHeaders s t) :
    s.server = t.server := by
  have hreceived : s.server.received = t.server.received := by
    simpa [Onlooker.ofAll] using hs.received
  obtain ⟨⟨reachable, replies, received⟩, headers, log⟩ := s
  obtain ⟨⟨reachable', replies', received'⟩, headers', log'⟩ := t
  obtain ⟨hreachable, hreplies, -, -, -⟩ := hs
  dsimp only at hreachable hreplies hreceived
  rw [hreachable, hreplies, hreceived]

theorem Attempt.latest_of_ne_nil
    {tried : List Attempt}
    (htried : tried ≠ [])
    (h k : Headers) :
    latest h tried = latest k tried := by
  rw [latest, latest, List.getLast?_eq_some_getLast htried]
  rfl

namespace Discovery

/-- Steps make the same attempts whatever is remembered or noted before. -/
theorem stepsAttempts_alike
    (a : Account)
    (k : Kind)
    (count : Nat)
    (stage : Stage)
    {s t : Session}
    (hs : Session.Alike .ofAll .ofAll False s t) :
    stepsAttempts a k count stage s = stepsAttempts a k count stage t := by
  induction count generalizing stage s t with
  | zero => rfl
  | succ n ih =>
    obtain ⟨outcome, later, later', hdone, hdone', hlater⟩ :=
      (run_alike (keepsTo_step a.base k stage).isOffWire a.alike_self hs).exists_eq
    rw [stepsAttempts, stepsAttempts, hdone, hdone', hs.server_eq]
    cases outcome with
    | ok next => exact congrArg _ (ih next hlater)
    | error f => exact congrArg _ (ih stage hlater)

end Discovery

namespace Account

/-- The account after work that may have changed its settings. -/
def configuredBy
    (a : Account)
    (work : List (Server × Directive)) : Account :=
  work.foldl (fun a w => w.2.configured a) a

end Account

namespace Desk

variable {d e : Desk} {directive : Directive}

/-- Work changes nothing of the account but its settings. -/
theorem account_handleAll
    (d : Desk)
    (work : List (Server × Directive)) :
    (d.handleAll work).account = d.account.configuredBy work := by
  induction work generalizing d with
  | nil => rfl
  | cons w work ih =>
    calc (d.handleAll (w :: work)).account
        = (d.handle w.1 w.2).2.account.configuredBy work := ih _
      _ = d.account.configuredBy (w :: work) := by
          rw [desk_handle]
          rfl

/-- A directive makes the same attempts at either desk. -/
theorem attemptsOf_alike
    (haccount : d.account = e.account)
    (hitem : ∀ name, directive = .store name → d.find? name = e.find? name)
    (server : Server) :
    d.attemptsOf (d.meeting server) directive = e.attemptsOf (e.meeting server) directive := by
  cases directive with
  | store name =>
    rw [attemptsOf, attemptsOf, hitem name rfl, haccount]
    rfl
  | operate operation keepAs =>
    rw [attemptsOf, attemptsOf, haccount]
    rfl
  | steps k count =>
    rw [attemptsOf, attemptsOf, haccount]
    exact Discovery.stepsAttempts_alike e.account k count .start ⟨rfl, rfl, rfl, rfl, False.elim⟩
  | _ => rfl

/-- A directive at either of two desks with the same settings and the same item to store. -/
theorem handle_congr
    (haccount : d.account = e.account)
    (hitem : ∀ name, directive = .store name → d.find? name = e.find? name)
    (server : Server) :
    let one := (d.handle server directive).1
    let other := (e.handle server directive).1
    one.result = other.result ∧ one.received = other.received ∧ one.unused = other.unused ∧
      one.log = other.log := by
  intro one other
  have halike : d.account.Alike .ofAll .ofAll e.account := haccount ▸ d.account.alike_self
  have hrecords : one.Alike .ofAll False other := handle_alike halike hitem False.elim server
  refine ⟨hrecords.result, ?_, hrecords.unused, hrecords.log_eq fun _ => rfl⟩
  simpa [Onlooker.ofAll] using hrecords.received

/-- A client was used for one thing or for another, without a difference to its settings.
Then a directive, given the same item if it stores one, hands out the same, makes the same
requests, uses up the same replies and notes the same, and if it attempts an exchange, the
same headers are remembered afterwards. -/
theorem calls_carry_no_history
    (d : Desk)
    (work other : List (Server × Directive))
    (directive : Directive)
    (hsettings : d.account.configuredBy work = d.account.configuredBy other)
    (hitem : ∀ name, directive = .store name →
      (d.handleAll work).find? name = (d.handleAll other).find? name)
    (server : Server) :
    let one := d.handleAll work
    let two := d.handleAll other
    let first := one.handle server directive
    let second := two.handle server directive
    let tried := one.attemptsOf (one.meeting server) directive
    (first.1.result = second.1.result ∧ first.1.received = second.1.received ∧
      first.1.unused = second.1.unused ∧ first.1.log = second.1.log) ∧
    tried = two.attemptsOf (two.meeting server) directive ∧
    (tried ≠ [] → first.1.lastHeaders = second.1.lastHeaders ∧
      first.2.lastHeaders = second.2.lastHeaders) := by
  intro one two first second tried
  have haccount : one.account = two.account := by
    rw [account_handleAll, account_handleAll, hsettings]
  have htried : tried = two.attemptsOf (two.meeting server) directive :=
    attemptsOf_alike haccount hitem server
  refine ⟨handle_congr haccount hitem server, htried, ?_⟩
  intro hsome
  have hheaders : first.2.lastHeaders = second.2.lastHeaders := by
    calc first.2.lastHeaders
        = Attempt.latest one.lastHeaders tried := lastHeaders_handle one server directive
      _ = Attempt.latest two.lastHeaders tried := Attempt.latest_of_ne_nil hsome _ _
      _ = Attempt.latest two.lastHeaders (two.attemptsOf (two.meeting server) directive) :=
          congrArg _ htried
      _ = second.2.lastHeaders := (lastHeaders_handle two server directive).symm
  exact ⟨hheaders, hheaders⟩

/-- Options that are asked for in vain, after an answer to the same question and then dumps
turned on, and after dumps turned on alone. -/
theorem calls_carry_no_history_cut_short :
    let d : Desk := { account := { base := ⟨"https", "dav.example", ⟨"/dav/", none⟩⟩ } }
    let answer : Http.Answer := { code := 204, headers := ⟨[.ofText "dav" "1"]⟩ }
    let asking := Directive.operate .capabilities none
    let work : List (Server × Directive) :=
      [({ replies := [.answer answer] }, asking), ({}, .setDumps true)]
    let other : List (Server × Directive) := [({}, .setDumps true)]
    let server : Server := { replies := [.cutShort, .noAnswer] }
    (d.handleAll work).lastHeaders ≠ (d.handleAll other).lastHeaders ∧
      ((d.handleAll work).handle server asking).1.log =
        ((d.handleAll other).handle server asking).1.log ∧
      ((d.handleAll work).handle server asking).2.lastHeaders =
        ((d.handleAll other).handle server asking).2.lastHeaders := by
  intro d answer asking work other server
  have hitem : ∀ name, asking = .store name →
      (d.handleAll work).find? name = (d.handleAll other).find? name := by
    simp [asking]
  obtain ⟨⟨-, -, -, hlog⟩, -, hheaders⟩ :=
    calls_carry_no_history d work other asking rfl hitem server
  have hremembered : (d.handleAll work).lastHeaders ≠ (d.handleAll other).lastHeaders := by
    decide +kernel
  have hasked :
      (d.handleAll work).attemptsOf ((d.handleAll work).meeting server) asking ≠ [] := by
    simp [asking, attemptsOf, Operation.plan, Client.capabilities, Plan.call, Plan.andThen,
      Plan.attempts]
  exact ⟨hremembered, hlog, (hheaders hasked).2⟩

end Desk
end PimDav
