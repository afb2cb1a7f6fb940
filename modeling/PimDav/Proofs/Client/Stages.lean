import PimDav.Proofs.Client.Leads

/-!
# The stages of a search

A search goes from the start to a principal and from there to its home, and every
step that is not the last one asks the server once.  A step that fails leaves no
trace in what is done later, and a step at the end does nothing.
-/

namespace PimDav
namespace Discovery

open Http (Call Receipt)

variable {a : Account} {k : Kind} {s : Session}

namespace Stage

/-- One stage comes after another. -/
inductive Advances : Stage → Stage → Prop
  | principal
      (href : String) :
      Advances .start (.principal href)
  | noPrincipal :
      Advances .start (.failed .principal)
  | home
      (href below : String) :
      Advances (.principal href) (.home href below)
  | noHome
      (href : String) :
      Advances (.principal href) (.failed .homeSet)

/-- The number of steps that are left at most. -/
def left : Stage → Nat
  | start => 2
  | principal _ => 1
  | home .. => 0
  | failed _ => 0

theorem left_eq_zero_iff
    {stage : Stage} :
    stage.left = 0 ↔ stage.isFinal = true := by
  cases stage <;> simp [left, isFinal]

theorem Advances.left_lt
    {stage later : Stage}
    (hadvances : stage.Advances later) :
    later.left < stage.left := by
  cases hadvances <;> simp [left]

/-- The call of the next step. -/
def call?
    (k : Kind) : Stage → Option Call
  | start => some (firstCall k)
  | principal href => some (.propfind href .zero (homeQuestion k))
  | home .. => none
  | failed _ => none

theorem exists_call
    {stage : Stage}
    (hfinal : stage.isFinal = false)
    (k : Kind) :
    ∃ c, stage.call? k = some c := by
  cases stage with
  | start => exact ⟨_, rfl⟩
  | principal href => exact ⟨_, rfl⟩
  | home href below => cases hfinal
  | failed missing => cases hfinal

/-- The stage that a receipt leads to. -/
def next
    (base : Uri)
    (k : Kind)
    (receipt : Receipt) : Stage → Stage
  | start =>
    match Discovery.principal receipt with
    | some sent => .principal (base.relative sent)
    | none => .failed .principal
  | principal href =>
    match homeSet k receipt with
    | some sent => .home href (base.relative sent)
    | none => .failed .homeSet
  | home href below => .home href below
  | failed missing => .failed missing

theorem advances_next
    {stage : Stage}
    (hfinal : stage.isFinal = false)
    (base : Uri)
    (k : Kind)
    (receipt : Receipt) :
    stage.Advances (stage.next base k receipt) := by
  cases stage with
  | start =>
    rw [next]
    cases Discovery.principal receipt with
    | none => exact .noPrincipal
    | some sent => exact .principal _
  | principal href =>
    rw [next]
    cases homeSet k receipt with
    | none => exact .noHome href
    | some sent => exact .home href _
  | home href below => cases hfinal
  | failed missing => cases hfinal

end Stage

/-- A step asks once; what it notes of the receipt is all that it does besides. -/
theorem step_eq_ask
    {stage : Stage}
    {c : Call}
    (hcall : stage.call? k = some c)
    (base : Uri) :
    ∃ rest : Receipt → Plan Stage, step base k stage = .ask c (fun _ => []) rest ∧
      ∀ receipt, ∃ entries, rest receipt = .noting entries (.done (stage.next base k receipt)) := by
  cases stage with
  | start =>
    cases hcall
    refine ⟨_, rfl, ?_⟩
    intro receipt
    rw [Stage.next, principal]
    simp only [Plan.andThen]
    cases principals receipt.responses with
    | nil => exact ⟨[_], rfl⟩
    | cons sent more =>
      dsimp only [List.head?_cons]
      cases more.find? (· != sent) with
      | none => exact ⟨[_], rfl⟩
      | some other => exact ⟨[_, _], rfl⟩
  | principal href =>
    cases hcall
    refine ⟨_, rfl, ?_⟩
    intro receipt
    rw [Stage.next, homeSet]
    simp only [Plan.andThen]
    cases firstHref? receipt.responses k.vocabulary.homeSet with
    | none => exact ⟨[_], rfl⟩
    | some sent => exact ⟨[_], rfl⟩
  | home href below => cases hcall
  | failed missing => cases hcall

/-- A step makes one attempt.  It fails with it, or goes where the receipt leads. -/
theorem step_cases
    {stage : Stage}
    {c : Call}
    (hcall : stage.call? k = some c)
    (a : Account)
    (s : Session) :
    (step a.base k stage).attempts a s.server = [Exchange.attempt a c s.server] ∧
      ((∃ f later, Exchange.perform a c s = (.error f, later) ∧
        (Exchange.attempt a c s.server).outcome = .error f ∧
        (step a.base k stage).run a s = (.error f, later)) ∨
      ∃ receipt later entries, Exchange.perform a c s = (.ok receipt, later) ∧
        (Exchange.attempt a c s.server).outcome = .ok receipt ∧
        (step a.base k stage).run a s =
          (.ok (stage.next a.base k receipt), later.note entries)) := by
  obtain ⟨rest, hstep, hrest⟩ := step_eq_ask hcall a.base
  rw [hstep]
  rcases Plan.ask_cases a c (fun _ => []) rest s with
    ⟨f, later, hperform, houtcome, hrun, htried⟩ |
    ⟨receipt, later, hperform, houtcome, hrun, htried⟩
  · rw [Session.note_nil] at hrun
    exact ⟨htried, Or.inl ⟨f, later, hperform, houtcome, hrun⟩⟩
  · obtain ⟨entries, hentries⟩ := hrest receipt
    rw [hentries, Plan.run_noting] at hrun
    rw [hentries, Plan.attempts_noting] at htried
    exact ⟨htried, Or.inr ⟨receipt, later, entries, hperform, houtcome, hrun⟩⟩

/-- A step that is not the last one fails, or goes on with one request. -/
theorem run_step_cases
    {stage : Stage}
    (hfinal : stage.isFinal = false)
    (a : Account)
    (k : Kind)
    (s : Session) :
    (∃ f later, (step a.base k stage).run a s = (.error f, later) ∧
      later.server.reachable = s.server.reachable ∧
      ∃ sent, later.server.received = s.server.received ++ sent ∧ sent.length ≤ 1) ∨
    ∃ next later, (step a.base k stage).run a s = (.ok next, later) ∧
      stage.Advances next ∧
      ∃ r, later.server.received = s.server.received ++ [r] := by
  obtain ⟨c, hcall⟩ := Stage.exists_call hfinal k
  rcases (step_cases hcall a s).2 with
    ⟨f, later, hperform, -, hrun⟩ | ⟨receipt, later, entries, hperform, -, hrun⟩
  · obtain ⟨sent, hsent, hrequests⟩ := Exchange.received_perform a c s
    have hserver := (Exchange.perform_meets a c s).2
    have hreachable := (Exchange.received_meet a c s.server).2
    rw [← hserver, hperform] at hreachable
    rw [hperform] at hsent
    exact Or.inl ⟨f, later, hrun, hreachable, sent, hsent,
      Nat.le_trans hrequests.length_le (Exchange.length_requests_le a c)⟩
  · obtain ⟨uri, answer, replies, -, -, -, -, -, hreceived⟩ :=
      Exchange.perform_eq_ok (congrArg Prod.fst hperform)
    rw [hperform] at hreceived
    exact Or.inr ⟨_, _, hrun, Stage.advances_next hfinal a.base k receipt, _, hreceived⟩

theorem step_of_isFinal
    {stage : Stage}
    (hfinal : stage.isFinal = true)
    (base : Uri)
    (k : Kind) :
    step base k stage = .done stage := by
  cases stage with
  | start => cases hfinal
  | principal href => cases hfinal
  | home href below => rfl
  | failed missing => rfl

/-! Steps one after another. -/

theorem steps_succ_of_ok
    {stage next : Stage}
    {later : Session}
    (hrun : (step a.base k stage).run a s = (.ok next, later))
    (n : Nat) :
    steps a k (n + 1) stage s =
      ((.ok next, next) :: (steps a k n next later).1, (steps a k n next later).2) := by
  rw [steps, hrun]

theorem steps_succ_of_error
    {stage : Stage}
    {f : Fault}
    {later : Session}
    (hrun : (step a.base k stage).run a s = (.error f, later))
    (n : Nat) :
    steps a k (n + 1) stage s =
      ((.error f, stage) :: (steps a k n stage later).1, (steps a k n stage later).2) := by
  rw [steps, hrun]

/-- The stage that some steps from another one have come to. -/
def reached
    (stage : Stage)
    (outcomes : List (Except Fault Stage × Stage)) : Stage :=
  (outcomes.getLast?.map Prod.snd).getD stage

theorem reached_cons
    (stage : Stage)
    (first : Except Fault Stage × Stage)
    (outcomes : List (Except Fault Stage × Stage)) :
    reached stage (first :: outcomes) = reached first.2 outcomes := by
  unfold reached
  cases outcomes with
  | nil => rfl
  | cons second outcomes =>
    rw [List.getLast?_cons_cons, List.getLast?_cons]
    rfl

/-- Steps that follow other steps go on from where these have come to. -/
theorem steps_add
    (a : Account)
    (k : Kind)
    (n m : Nat)
    (stage : Stage)
    (s : Session) :
    let first := steps a k n stage s
    let rest := steps a k m (reached stage first.1) first.2
    steps a k (n + m) stage s = (first.1 ++ rest.1, rest.2) := by
  dsimp only
  induction n generalizing stage s with
  | zero =>
    rw [Nat.zero_add]
    rfl
  | succ n ih =>
    rw [Nat.succ_add]
    cases hrun : (step a.base k stage).run a s with
    | mk outcome later =>
      cases outcome with
      | ok next =>
        rw [steps_succ_of_ok hrun, steps_succ_of_ok hrun, reached_cons, ih next later]
        rfl
      | error f =>
        rw [steps_succ_of_error hrun, steps_succ_of_error hrun, reached_cons, ih stage later]
        rfl

/-- Steps do not look at what was before them, and add to it. -/
theorem steps_after
    (a : Account)
    (k : Kind)
    (n : Nat)
    (stage : Stage)
    (s : Session)
    (received : List Http.Request)
    (log : List Entry) :
    steps a k n stage (s.after received log) =
      ((steps a k n stage s).1, (steps a k n stage s).2.after received log) := by
  induction n generalizing stage s with
  | zero => rfl
  | succ n ih =>
    have hafter := Plan.run_after a (step a.base k stage) s received log
    cases hrun : (step a.base k stage).run a s with
    | mk outcome later =>
      rw [hrun] at hafter
      cases outcome with
      | ok next => rw [steps_succ_of_ok hafter, steps_succ_of_ok hrun, ih next later]
      | error f => rw [steps_succ_of_error hafter, steps_succ_of_error hrun, ih stage later]

/-- Whether steps from a stage lead to the same in two sessions, each with what it had been
through before. -/
def AlikeFrom
    (a : Account)
    (k : Kind)
    (stage : Stage)
    (s t : Session) : Prop :=
  ∀ n, ∃ (outcomes : List (Except Fault Stage × Stage)) (last : Session),
    steps a k (n + 1) stage s = (outcomes, last.after s.server.received s.log) ∧
      steps a k (n + 1) stage t = (outcomes, last.after t.server.received t.log)

/-- Only what a server has left decides what steps lead to. -/
theorem alikeFrom_of_server
    {stage : Stage}
    {s t : Session}
    (hfinal : stage.isFinal = false)
    (hreachable : s.server.reachable = t.server.reachable)
    (hreplies : s.server.replies = t.server.replies)
    (a : Account)
    (k : Kind) :
    AlikeFrom a k stage s t := by
  intro n
  obtain ⟨c, hcall⟩ := Stage.exists_call hfinal k
  obtain ⟨rest, hstep, -⟩ := step_eq_ask hcall a.base
  -- A call forgets the headers of the exchange before it.
  have hfresh : ∀ u : Session, u.server.reachable = t.server.reachable →
      u.server.replies = t.server.replies →
      steps a k (n + 1) stage u =
        steps a k (n + 1) stage
          (Session.after { server := { t.server with received := [] } } u.server.received
            u.log) := by
    rintro ⟨⟨reachable, replies, received⟩, headers, log⟩ rfl rfl
    rw [steps, steps, hstep, Plan.run, Plan.run, ← Exchange.perform_forgets]
    simp [Session.after, Server.after]
  exact ⟨_, _, (hfresh s hreachable hreplies).trans (steps_after ..),
    (hfresh t rfl rfl).trans (steps_after ..)⟩

/-! The whole search. -/

/-- Steps until a final stage, but no more than a number of them. -/
def untilFinal
    (base : Uri)
    (k : Kind) : Nat → Stage → Plan Stage
  | 0, stage => .done stage
  | n + 1, stage =>
    if stage.isFinal then .done stage else (step base k stage).andThen (untilFinal base k n)

theorem untilFinal_of_isFinal
    {stage : Stage}
    (hfinal : stage.isFinal = true)
    (base : Uri)
    (k : Kind)
    (n : Nat) :
    untilFinal base k n stage = .done stage := by
  cases n with
  | zero => rfl
  | succ n => rw [untilFinal, if_pos hfinal]

theorem search_eq_untilFinal
    (base : Uri)
    (k : Kind) :
    search base k = (untilFinal base k 2 .start).andThen fun stage => .done stage.found? := by
  have hsecond : untilFinal base k 1 = step base k := by
    funext stage
    cases hfinal : stage.isFinal with
    | true => rw [untilFinal_of_isFinal hfinal, step_of_isFinal hfinal]
    | false =>
      rw [untilFinal, hfinal]
      exact Plan.andThen_done _
  rw [untilFinal, hsecond, if_neg (by decide), Plan.andThen_assoc]
  rfl

theorem run_untilFinal_succ
    {stage : Stage}
    (hfinal : stage.isFinal = false)
    (n : Nat)
    (s : Session) :
    (untilFinal a.base k (n + 1) stage).run a s =
      match (step a.base k stage).run a s with
      | (.ok next, later) => (untilFinal a.base k n next).run a later
      | (.error f, later) => (.error f, later) := by
  rw [untilFinal, hfinal, if_neg Bool.false_ne_true, Plan.run_andThen]
  cases (step a.base k stage).run a s with
  | mk outcome later => cases outcome <;> rfl

/-- More steps than are left at most make no difference. -/
theorem run_untilFinal_eq
    {stage : Stage}
    {n m : Nat}
    (hn : stage.left ≤ n)
    (hm : stage.left ≤ m)
    (s : Session) :
    (untilFinal a.base k n stage).run a s = (untilFinal a.base k m stage).run a s := by
  induction n generalizing m stage s with
  | zero =>
    have hfinal := Stage.left_eq_zero_iff.1 (Nat.le_zero.1 hn)
    rw [untilFinal_of_isFinal hfinal, untilFinal_of_isFinal hfinal]
  | succ n ih =>
    cases hfinal : stage.isFinal with
    | true => rw [untilFinal_of_isFinal hfinal, untilFinal_of_isFinal hfinal]
    | false =>
      cases m with
      | zero =>
        rw [Stage.left_eq_zero_iff.1 (Nat.le_zero.1 hm)] at hfinal
        cases hfinal
      | succ m =>
        rw [run_untilFinal_succ hfinal, run_untilFinal_succ hfinal]
        rcases run_step_cases hfinal a k s with ⟨f, later, hrun, -⟩ | ⟨next, later, hrun, hnext, -⟩
        · rw [hrun]
        · have hleft := hnext.left_lt
          rw [hrun]
          exact ih (by omega) (by omega) later

theorem isFinal_of_run_untilFinal
    {stage last : Stage}
    {n : Nat}
    (hn : stage.left ≤ n)
    (hlast : ((untilFinal a.base k n stage).run a s).1 = .ok last) :
    last.isFinal = true := by
  induction n generalizing stage s with
  | zero =>
    cases hlast
    exact Stage.left_eq_zero_iff.1 (Nat.le_zero.1 hn)
  | succ n ih =>
    cases hfinal : stage.isFinal with
    | true =>
      rw [untilFinal_of_isFinal hfinal] at hlast
      cases hlast
      exact hfinal
    | false =>
      rw [run_untilFinal_succ hfinal] at hlast
      rcases run_step_cases hfinal a k s with ⟨f, later, hrun, -⟩ | ⟨next, later, hrun, hnext, -⟩
      · rw [hrun] at hlast
        cases hlast
      · have hleft := hnext.left_lt
        rw [hrun] at hlast
        exact ih (by omega) hlast

/-- What the calls of a search lead to decides what the search hands out. -/
inductive Settles
    (base : Uri)
    (k : Kind) :
    List (Except Fault Receipt) →
    Except Fault (Option Found) →
    Prop
  | failed
      (f : Fault) :
      Settles base k [.error f] (.error f)
  | noPrincipal
      {first : Receipt}
      (hnone : principal first = none) :
      Settles base k [.ok first] (.ok none)
  | failedLater
      {first : Receipt}
      {sent : String}
      (hsent : principal first = some sent)
      (f : Fault) :
      Settles base k [.ok first, .error f] (.error f)
  | noHome
      {first second : Receipt}
      {sent : String}
      (hsent : principal first = some sent)
      (hnone : homeSet k second = none) :
      Settles base k [.ok first, .ok second] (.ok none)
  | found
      {first second : Receipt}
      {sent home : String}
      (hsent : principal first = some sent)
      (hhome : homeSet k second = some home) :
      Settles base k [.ok first, .ok second]
        (.ok (some ⟨base.relative sent, base.relative home⟩))

theorem settles_search
    (a : Account)
    (k : Kind)
    (s : Session) :
    Settles a.base k ((search a.base k).outcomes a s) ((search a.base k).run a s).1 := by
  have hsearch : search a.base k =
      (step a.base k .start).andThen fun stage =>
        (step a.base k stage).andThen fun stage => .done stage.found? := by
    rfl
  rw [hsearch, Plan.outcomes, Plan.attempts_andThen, Plan.run_andThen]
  obtain ⟨htried, hcases⟩ := step_cases (rfl : Stage.call? k .start = _) a s
  rw [htried]
  rcases hcases with
    ⟨f, later, -, houtcome, hrun⟩ | ⟨first, later, entries, -, houtcome, hrun⟩
  · rw [hrun, List.append_nil, List.map_singleton, houtcome]
    exact .failed f
  · rw [hrun, List.map_append, List.map_singleton, houtcome, Stage.next]
    dsimp only
    cases hsent : principal first with
    | none => exact .noPrincipal hsent
    | some sent =>
      dsimp only
      rw [Plan.attempts_andThen, Plan.run_andThen]
      obtain ⟨htried, hcases⟩ :=
        step_cases (rfl : Stage.call? k (.principal _) = _) a (later.note entries)
      rw [htried]
      rcases hcases with
        ⟨f, last, -, houtcome, hrun⟩ | ⟨second, last, more, -, houtcome, hrun⟩
      · rw [hrun, List.append_nil, List.map_singleton, houtcome]
        exact .failedLater hsent f
      · rw [hrun, List.map_append, List.map_singleton, houtcome, Stage.next]
        dsimp only
        cases hhome : homeSet k second with
        | none => exact .noHome hsent hhome
        | some home => exact .found hsent hhome

namespace Settles

variable {base : Uri} {calls : List (Except Fault Receipt)} {result : Except Fault (Option Found)}

theorem length_le
    (hsettles : Settles base k calls result) :
    calls.length ≤ 2 := by
  cases hsettles <;> simp

theorem eq_error_iff
    (hsettles : Settles base k calls result)
    (f : Fault) :
    result = .error f ↔ .error f ∈ calls := by
  cases hsettles <;> simp [eq_comm]

theorem eq_ok_none_iff
    (hsettles : Settles base k calls result) :
    result = .ok none ↔
      (∃ first, calls = [.ok first] ∧ principal first = none) ∨
        ∃ first second, calls = [.ok first, .ok second] ∧ (principal first).isSome = true ∧
          homeSet k second = none := by
  cases hsettles <;> grind

theorem eq_ok_some_iff
    (hsettles : Settles base k calls result)
    (found : Found) :
    result = .ok (some found) ↔
      ∃ first second sent home, calls = [.ok first, .ok second] ∧
        principal first = some sent ∧ homeSet k second = some home ∧
        found = ⟨base.relative sent, base.relative home⟩ := by
  cases hsettles <;> grind

end Settles

/-- A search sends no more requests than it makes calls. -/
theorem received_search
    (a : Account)
    (k : Kind)
    (s : Session) :
    ∃ sent, ((search a.base k).run a s).2.server.received = s.server.received ++ sent ∧
      sent.length ≤ ((search a.base k).outcomes a s).length := by
  refine ⟨_, (Plan.leadTo_run a (search a.base k) s).received, ?_⟩
  rw [Plan.outcomes, List.length_map]
  split
  · exact Attempt.length_requests_le a _
  · exact Nat.zero_le _

/-- Whatever the server answers, any number of steps goes through the stages in their
order: a step at the end changes nothing, one that succeeds advances with one request,
and one that fails changes nothing for the steps after it.  So a search ends after two
calls at most; it fails exactly with the fault of one of them, finds nothing exactly
when all of them succeeded and the principal or the home is missing, and finds a home
exactly when both were there. -/
theorem search_goes_by_stages
    (a : Account)
    (k : Kind)
    (s : Session) :
    (∀ n,
      let earlier := steps a k n .start s
      let stage := reached .start earlier.1
      ∃ outcome next later,
        steps a k (n + 1) .start s = (earlier.1 ++ [(outcome, next)], later) ∧
        (stage.isFinal = true → outcome = .ok stage ∧ next = stage ∧ later = earlier.2) ∧
        (stage.isFinal = false →
          (∀ newer, outcome = .ok newer →
            next = newer ∧ stage.Advances newer ∧
              ∃ r, later.server.received = earlier.2.server.received ++ [r]) ∧
          ∀ f, outcome = .error f →
            let spared := { earlier.2.server with replies := later.server.replies }
            next = stage ∧
              (∃ sent, later.server.received = earlier.2.server.received ++ sent ∧
                sent.length ≤ 1) ∧
              AlikeFrom a k stage later { earlier.2 with server := spared })) ∧
    (∀ n, 2 ≤ n →
      let looped := (untilFinal a.base k n .start).run a s
      (∀ last, looped.1 = .ok last → last.isFinal = true) ∧
        (search a.base k).run a s = (looped.1.map Stage.found?, looped.2)) ∧
    let calls := (search a.base k).outcomes a s
    let done := (search a.base k).run a s
    calls.length ≤ 2 ∧
      (∃ sent, done.2.server.received = s.server.received ++ sent ∧
        sent.length ≤ calls.length) ∧
      (∀ f, done.1 = .error f ↔ .error f ∈ calls) ∧
      (done.1 = .ok none ↔
        (∃ first, calls = [.ok first] ∧ principal first = none) ∨
          ∃ first second, calls = [.ok first, .ok second] ∧
            (principal first).isSome = true ∧ homeSet k second = none) ∧
      ∀ found, done.1 = .ok (some found) ↔
        ∃ first second sent home, calls = [.ok first, .ok second] ∧
          principal first = some sent ∧ homeSet k second = some home ∧
          found = ⟨a.base.relative sent, a.base.relative home⟩ := by
  refine ⟨?_, ?_, ?_⟩
  · intro n
    dsimp only
    have hsteps := steps_add a k n 1 .start s
    dsimp only at hsteps
    generalize steps a k n .start s = earlier at hsteps ⊢
    generalize reached .start earlier.1 = stage at hsteps ⊢
    cases hfinal : stage.isFinal with
    | true =>
      have hrun : (step a.base k stage).run a earlier.2 = (.ok stage, earlier.2) := by
        rw [step_of_isFinal hfinal, Plan.run]
      rw [steps_succ_of_ok hrun] at hsteps
      refine ⟨.ok stage, stage, earlier.2, hsteps, fun _ => ⟨rfl, rfl, rfl⟩, ?_⟩
      intro hopen
      cases hopen
    | false =>
      rcases run_step_cases hfinal a k earlier.2 with
        ⟨f, later, hrun, hreachable, hsent⟩ | ⟨next, later, hrun, hadvances, hreceived⟩
      · rw [steps_succ_of_error hrun] at hsteps
        refine ⟨.error f, stage, later, hsteps, fun hend => ?_, fun _ => ⟨?_, ?_⟩⟩
        · cases hend
        · intro newer hnewer
          cases hnewer
        · intro _ _
          refine ⟨rfl, hsent, ?_⟩
          apply alikeFrom_of_server hfinal
          · exact hreachable
          · rfl
      · rw [steps_succ_of_ok hrun] at hsteps
        refine ⟨.ok next, next, later, hsteps, fun hend => ?_, fun _ => ⟨?_, ?_⟩⟩
        · cases hend
        · intro newer hnewer
          cases hnewer
          exact ⟨rfl, hadvances, hreceived⟩
        · intro f hf
          cases hf
  · intro n hn
    dsimp only
    refine ⟨fun last hlast => isFinal_of_run_untilFinal hn hlast, ?_⟩
    rw [search_eq_untilFinal, Plan.run_andThen, run_untilFinal_eq (Nat.le_refl 2) hn s]
    cases (untilFinal a.base k n .start).run a s with
    | mk outcome later => cases outcome <;> rfl
  · have hsettles := settles_search a k s
    exact ⟨hsettles.length_le, received_search a k s, hsettles.eq_error_iff,
      hsettles.eq_ok_none_iff, hsettles.eq_ok_some_iff⟩

/-- A search whose first step gets no answer goes on as if it had not been tried. -/
theorem search_goes_by_stages_again :
    let a : Account := { base := ⟨"https", "dav.example", ⟨"/dav/", none⟩⟩ }
    let reply (property href : String) : Http.Reply :=
      let pieces :=
        ["<?xml?><multistatus><response><propstat><prop><", property, "><href>", href,
          "</href></", property, "></prop></propstat></response></multistatus>"]
      .answer { code := 207, body := .plain (pieces.flatMap Utf8.encode) }
    let replies :=
      [reply "current-user-principal" "/dav/p/", reply "calendar-home-set" "/dav/c/p/"]
    let s : Session := { server := { replies := .noAnswer :: replies } }
    let spared : Session := { server := { replies } }
    let failed := steps a .event 1 .start s
    (∃ f, failed.1 = [(.error f, .start)]) ∧
      (steps a .event 3 .start failed.2).1 = (steps a .event 3 .start spared).1 ∧
      reached .start (steps a .event 3 .start spared).1 = .home "p/" "c/p/" ∧
      ∃ f, ((search a.base .event).run a s).1 = .error f := by
  intro a reply replies s spared failed
  have hfailed : failed.1.map (fun done => (done.1.toOption, done.2)) = [(none, .start)] := by
    decide +kernel
  have hleft : failed.2.server.replies = replies := by decide +kernel
  have hcalls : ((search a.base .event).outcomes a s).map Except.toOption = [none] := by
    decide +kernel
  obtain ⟨hsteps, -, -, -, herror, -⟩ := search_goes_by_stages a .event s
  obtain ⟨outcome, next, later, hfirst, -, hnext⟩ := hsteps 0
  have hfirst : failed = ([(outcome, next)], later) := hfirst
  rw [hfirst] at hfailed hleft
  cases outcome with
  | ok newer => cases hfailed
  | error f =>
    cases hfailed
    obtain ⟨-, -, halike⟩ := (hnext rfl).2 f rfl
    obtain ⟨outcomes, last, hlater, hspared⟩ := halike 2
    rw [hleft] at hspared
    refine ⟨⟨f, congrArg Prod.fst hfirst⟩, ?_, by decide +kernel, ?_⟩
    · rw [hfirst]
      exact (congrArg Prod.fst hlater).trans (congrArg Prod.fst hspared).symm
    · obtain ⟨call, hcall, hnone⟩ : ∃ call ∈ (search a.base .event).outcomes a s,
          call.toOption = none := by
        rw [← List.mem_map, hcalls]
        exact List.mem_singleton_self none
      cases call with
      | ok receipt => cases hnone
      | error f => exact ⟨f, (herror f).2 hcall⟩

end Discovery
end PimDav
