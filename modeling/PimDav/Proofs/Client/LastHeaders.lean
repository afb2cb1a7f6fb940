import PimDav.Proofs.Attempts
import PimDav.Proofs.Client.Storing

/-!
# The headers that are remembered

A client remembers the headers of one exchange, the last one that was attempted.  They
are forgotten when the next one begins, and those of its own answer take their place as
soon as that is known to be a success and has been decoded, before it is read as markup.
So after any work they depend on the last attempt alone.
-/

namespace PimDav

open Http (Answer Headers)

namespace Attempt

theorem remembered_of_answer?
    {t : Attempt}
    {answer : Answer}
    (hanswer : t.answer? = some answer) :
    t.remembered =
      if answer.headers.codings = [] then answer.headers
      else answer.headers.without ["content-encoding", "content-length"] := by
  rw [remembered, hanswer]
  simp [Headers.decoded]

theorem latest_concat
    (h : Headers)
    (earlier : List Attempt)
    (t : Attempt) :
    latest h (earlier ++ [t]) = t.remembered := by
  rw [latest, List.getLast?_concat]
  rfl

end Attempt

namespace Discovery

/-- The attempts of a number of steps, in the order in which they are made. -/
def stepsAttempts
    (a : Account)
    (k : Kind) :
    Nat →
    Stage →
    Session →
    List Attempt
  | 0, _, _ => []
  | n + 1, stage, s =>
    (step a.base k stage).attempts a s.server ++
      match (step a.base k stage).run a s with
      | (.ok next, s) => stepsAttempts a k n next s
      | (.error _, s) => stepsAttempts a k n stage s

theorem leadTo_steps
    (a : Account)
    (k : Kind)
    (count : Nat)
    (stage : Stage)
    (s : Session) :
    Attempt.LeadTo a s (stepsAttempts a k count stage s) (steps a k count stage s).2 := by
  -- A step that fails is not the last one, so both outcomes go on.
  induction count generalizing stage s with
  | zero => exact .nil a s
  | succ n ih =>
    have hstep := Plan.leadTo_run a (step a.base k stage) s
    rw [stepsAttempts, steps]
    cases hdone : (step a.base k stage).run a s with
    | mk outcome later =>
      rw [hdone] at hstep
      cases outcome with
      | ok next => exact hstep.append (ih next later)
      | error f => exact hstep.append (ih stage later)

end Discovery

namespace Desk

/-- The attempts that a directive makes in a session. -/
def attemptsOf
    (d : Desk)
    (s : Session) : Directive → List Attempt
  | .store name =>
    match d.find? name with
    | some item => (Client.store item).attempts d.account s.server
    | none => []
  | .operate operation _ => (operation.plan d.account.base).attempts d.account s.server
  | .steps k count => Discovery.stepsAttempts d.account k count .start s
  | .setDumps _ => []
  | .setTimeout _ => []
  | .principalOf _ => []
  | .keep .. => []

theorem leadTo_obey
    (d : Desk)
    (s : Session)
    (directive : Directive) :
    Attempt.LeadTo d.account s (d.attemptsOf s directive) (d.obey s directive).2.2 := by
  cases directive with
  | store name =>
    rw [attemptsOf, obey]
    cases d.find? name with
    | none => exact .nil d.account s
    | some item =>
      have hstore := Plan.leadTo_run d.account (Client.store item) s
      dsimp only
      cases hdone : (Client.store item).run d.account s with
      | mk outcome later =>
        rw [hdone] at hstore
        cases outcome <;> exact hstore
  | operate operation keepAs => exact Plan.leadTo_run d.account (operation.plan d.account.base) s
  | steps k count => exact Discovery.leadTo_steps d.account k count .start s
  | _ => exact .nil d.account s

/-- The session in which a desk meets a server. -/
def meeting
    (d : Desk)
    (server : Server) : Session :=
  { server, lastHeaders := d.lastHeaders }

/-- The attempts of directives given one after another, each with the server that it meets. -/
def attempts : Desk → List (Server × Directive) → List Attempt
  | _, [] => []
  | d, (server, directive) :: work =>
    d.attemptsOf (d.meeting server) directive ++ (d.handle server directive).2.attempts work

theorem lastHeaders_handle
    (d : Desk)
    (server : Server)
    (directive : Directive) :
    (d.handle server directive).2.lastHeaders =
      Attempt.latest d.lastHeaders (d.attemptsOf (d.meeting server) directive) :=
  (leadTo_obey d (d.meeting server) directive).headers

theorem lastHeaders_handleAll
    (d : Desk)
    (work : List (Server × Directive)) :
    (d.handleAll work).lastHeaders = Attempt.latest d.lastHeaders (d.attempts work) := by
  induction work generalizing d with
  | nil => rfl
  | cons w work ih =>
    obtain ⟨server, directive⟩ := w
    calc (d.handleAll ((server, directive) :: work)).lastHeaders
        = Attempt.latest (d.handle server directive).2.lastHeaders
            ((d.handle server directive).2.attempts work) := ih _
      _ = Attempt.latest d.lastHeaders (d.attempts ((server, directive) :: work)) := by
          rw [lastHeaders_handle, ← Attempt.latest_append, attempts]

/-- Without an href nothing is fetched. -/
theorem attemptsOf_fetch_blank
    {hrefs : List String}
    (hblank : ∀ href ∈ hrefs, Text.trim href = "")
    (d : Desk)
    (s : Session)
    (folder : String)
    (k : Kind)
    (keepAs : Option String) :
    d.attemptsOf s (.operate (.fetch folder k hrefs) keepAs) = [] := by
  have hnothing : hrefs.filterMap Text.trimmed? = [] := by
    rw [List.filterMap_eq_nil_iff]
    intro href hhref
    rw [Text.trimmed?, hblank href hhref]
    rfl
  rw [attemptsOf, Operation.plan, Client.fetch, hnothing]
  rfl

/-- Whatever a client did since it was made, it remembers no headers unless the exchange
that it attempted last got a successful answer in whole, and then exactly those of this
answer, without the fields about the coded body if a coding was undone.  Work that attempts
no exchange leaves them as they are. -/
theorem remembers_last_attempt
    (account : Account)
    (items : List (String × Item))
    (work : List (Server × Directive)) :
    let d : Desk := { account, items }
    let tried := d.attempts work
    let later := d.handleAll work
    (tried = [] → later.lastHeaders = {}) ∧
    (∀ earlier last, tried = earlier ++ [last] →
      (∀ answer bytes, last.reply = some (.answer answer) →
        Http.isSuccess answer.code = true →
        answer.body.decode? answer.headers.codings = some bytes →
        later.lastHeaders =
          if answer.headers.codings = [] then answer.headers
          else answer.headers.without ["content-encoding", "content-length"]) ∧
      ((∀ answer, last.reply = some (.answer answer) → Http.isSuccess answer.code = true →
          answer.body.decode? answer.headers.codings = none) →
        later.lastHeaders = {})) ∧
    ∀ server,
      let s := later.meeting server
      (∀ directive,
        Attempt.LeadTo later.account s (later.attemptsOf s directive)
          (later.obey s directive).2.2 ∧
        (later.attemptsOf s directive = [] →
          (later.handle server directive).2.lastHeaders = later.lastHeaders)) ∧
      (∀ folder k hrefs keepAs, (∀ href ∈ hrefs, Text.trim href = "") →
        later.attemptsOf s (.operate (.fetch folder k hrefs) keepAs) = []) ∧
      (∀ item keepAs, item.payload.getD "" = "" →
        later.attemptsOf s (.operate (.store item) keepAs) = []) ∧
      (∀ name item, later.find? name = some item → item.payload.getD "" = "" →
        later.attemptsOf s (.store name) = []) := by
  intro d tried later
  have hlast : later.lastHeaders = Attempt.latest {} tried := lastHeaders_handleAll d work
  refine ⟨?_, ?_, ?_⟩
  · intro hnone
    rw [hlast, hnone]
    rfl
  · intro earlier last htried
    rw [htried, Attempt.latest_concat] at hlast
    rw [hlast]
    constructor
    · intro answer bytes hreply hcode hbody
      exact Attempt.remembered_of_answer?
        (Attempt.answer?_eq_some_iff.2 ⟨hreply, hcode, bytes, hbody⟩)
    · intro hbroken
      have hnothing : last.answer? = none := by
        rw [Option.eq_none_iff_forall_ne_some]
        intro answer hanswer
        obtain ⟨hreply, hcode, bytes, hbody⟩ := Attempt.answer?_eq_some_iff.1 hanswer
        rw [hbroken answer hreply hcode] at hbody
        cases hbody
      rw [Attempt.remembered, hnothing]
  · intro server s
    refine ⟨?_, ?_, ?_, ?_⟩
    · intro directive
      refine ⟨leadTo_obey later s directive, ?_⟩
      intro hnone
      rw [lastHeaders_handle, hnone]
      rfl
    · intro folder k hrefs keepAs hblank
      exact attemptsOf_fetch_blank hblank later s folder k keepAs
    · intro item keepAs hempty
      rw [attemptsOf, Operation.plan, Client.store_of_empty hempty]
      rfl
    · intro name item hitem hempty
      rw [attemptsOf, hitem]
      dsimp only
      rw [Client.store_of_empty hempty]
      rfl

/-- A refusal, then a coded answer that is no markup inside, and then nothing to fetch. -/
theorem remembers_last_attempt_unreadable :
    let d : Desk :=
      { account := { base := ⟨"https", "dav.example", ⟨"/dav/", none⟩⟩ }
        items := [("a", { kind := .event, href := "cal/a.ics", payload := some "BEGIN" })] }
    let refusal : Answer := { code := 412, headers := ⟨[.ofText "etag" "\"v8\""]⟩ }
    let coded : Answer :=
      { code := 207
        headers := ⟨[.ofText "content-encoding" "gzip", .ofText "dav" "1",
          .ofText "content-length" "17"]⟩
        body := .coded .gzip (.plain (Utf8.encode "<?xml?><response>")) }
    let work : List (Server × Directive) :=
      [({ replies := [.answer refusal] }, .store "a"),
        ({ replies := [.answer coded] }, .operate (.search "cal/" .event none) none)]
    let later := d.handleAll work
    later.lastHeaders = ⟨[.ofText "dav" "1"]⟩ ∧
      (later.handle {} (.operate (.fetch "cal/" .event [" ", ""]) none)).2.lastHeaders =
        ⟨[.ofText "dav" "1"]⟩ := by
  intro d refusal coded work later
  have hreply : (d.attempts work).getLast?.map (·.reply) = some (some (.answer coded)) := by
    decide +kernel
  obtain ⟨last, hlast, hreply⟩ := Option.map_eq_some_iff.1 hreply
  obtain ⟨earlier, htried⟩ := List.getLast?_eq_some_iff.1 hlast
  obtain ⟨-, hkept, hnext⟩ := remembers_last_attempt d.account d.items work
  have hheaders : later.lastHeaders = ⟨[.ofText "dav" "1"]⟩ := by
    rw [(hkept earlier last htried).1 coded _ hreply rfl rfl]
    decide +kernel
  obtain ⟨hall, hfetch, -, -⟩ := hnext {}
  refine ⟨hheaders, ?_⟩
  have hblank : ∀ href ∈ [" ", ""], Text.trim href = "" := by decide +kernel
  rw [(hall (.operate (.fetch "cal/" .event [" ", ""]) none)).2
    (hfetch "cal/" .event [" ", ""] none hblank)]
  exact hheaders

end Desk
end PimDav
