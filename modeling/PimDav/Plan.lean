import PimDav.Exchange

/-!
# Plans

A plan says what a client does for its caller: which calls it makes, one after
another, depending on the receipts so far, what it writes into the log, and what
it hands out in the end.  A call that fails ends the plan with its fault.  Plans
know nothing of credentials, of the log so far or of earlier plans.
-/

namespace PimDav

open Http (Call Depth Field Headers Receipt)

inductive Plan (α : Type) where
  | done (value : α)
  | fail (fault : Fault)
  | note (entry : Entry) (next : Plan α)
  /-- A call; what is noted when it fails, and how the plan goes on if not. -/
  | ask (call : Call) (complaints : Fault → List Entry) (next : Receipt → Plan α)

namespace Plan

/-- One plan and then another that depends on what the first one handed out. -/
def andThen
    {α β : Type} :
    Plan α →
    (α → Plan β) →
    Plan β
  | done a, k => k a
  | fail f, _ => fail f
  | note entry next, k => note entry (next.andThen k)
  | ask call complaints next, k => ask call complaints fun r => (next r).andThen k

instance : Monad Plan where
  pure := done
  bind := andThen

@[simp] theorem pure_eq
    {α : Type}
    (a : α) :
    (pure a : Plan α) = done a := by
  rfl

@[simp] theorem bind_eq
    {α β : Type}
    (p : Plan α)
    (k : α → Plan β) :
    p >>= k = p.andThen k := by
  rfl

@[simp] theorem andThen_done
    {α : Type}
    (p : Plan α) :
    p.andThen done = p := by
  induction p with
  | done a => rfl
  | fail f => rfl
  | note entry next ih => simp [andThen, ih]
  | ask call complaints next ih => simp [andThen, ih]

theorem andThen_assoc
    {α β γ : Type}
    (p : Plan α)
    (k : α → Plan β)
    (l : β → Plan γ) :
    (p.andThen k).andThen l = p.andThen fun a => (k a).andThen l := by
  induction p with
  | done a => rfl
  | fail f => rfl
  | note entry next ih => simp [andThen, ih]
  | ask call complaints next ih => simp [andThen, ih]

/-- The plan carried out for an account in a session. -/
def run
    {α : Type}
    (a : Account) :
    Plan α →
    Session →
    Except Fault α × Session
  | done value, s => (.ok value, s)
  | fail f, s => (.error f, s)
  | note entry next, s => next.run a (s.note [entry])
  | ask call complaints next, s =>
    match Exchange.perform a call s with
    | (.ok receipt, s) => (next receipt).run a s
    | (.error f, s) => (.error f, s.note (complaints f))

/-- One plan and then another are carried out in the same session, unless the first
one fails. -/
theorem run_andThen
    {α β : Type}
    (a : Account)
    (p : Plan α)
    (k : α → Plan β)
    (s : Session) :
    (p.andThen k).run a s =
      match p.run a s with
      | (.ok value, s) => (k value).run a s
      | (.error f, s) => (.error f, s) := by
  induction p generalizing s with
  | done value => rfl
  | fail f => rfl
  | note entry next ih => simpa [andThen, run] using ih (s.note [entry])
  | ask call complaints next ih =>
    simp only [andThen, run]
    cases hdone : Exchange.perform a call s with
    | mk outcome later =>
      cases outcome with
      | ok receipt => simpa using ih receipt later
      | error f => rfl

/-- An entry of the log. -/
def say (entry : Entry) : Plan Unit :=
  note entry (done ())

/-- A call of which nothing is noted. -/
def call (c : Call) : Plan Receipt :=
  ask c (fun _ => []) done

/-- A call that is noted when it fails. -/
def callNoting
    (complaint : Fault → Entry)
    (c : Call) : Plan Receipt :=
  ask c (fun f => [complaint f]) done

/-- The value, or the plan that fails. -/
def ofExcept
    {α : Type} : Except Fault α → Plan α
  | .ok a => done a
  | .error f => fail f

end Plan

namespace Http
namespace Call

/-- The fields that go with a request for properties. -/
def minimalHeaders (d : Depth) : Headers :=
  ⟨[.ofText "depth" d.text, .ofText "prefer" "return-minimal"]⟩

/-- A call whose body is a document. -/
def ofDocument
    (method href : String)
    (headers : Headers)
    (body : Xml.Element) : Call :=
  { method, href, headers, body := some (Utf8.encode body.document) }

def propfind
    (href : String)
    (d : Depth)
    (body : Xml.Element) : Call :=
  ofDocument "PROPFIND" href (minimalHeaders d) body

def report
    (href : String)
    (d : Depth)
    (body : Xml.Element) : Call :=
  ofDocument "REPORT" href (minimalHeaders d) body

def proppatch
    (href : String)
    (body : Xml.Element) : Call :=
  ofDocument "PROPPATCH" href {} body

/-- The creation of a collection with its first properties. -/
def mkcol
    (href : String)
    (body : Xml.Element) : Call :=
  ofDocument "MKCOL" href {} body

/-- A call without a body. -/
def bare (method href : String) : Call :=
  { method, href }

/-- A call whose body has a type of its own, which has to be a proper value. -/
def typed
    (method href contentType : String)
    (body : Bytes) : Except Fault Call :=
  let type := Field.ofText "content-type" contentType
  if Field.isValue type.value then .ok { method, href, headers := ⟨[type]⟩, body := some body }
  else .error .badHeader

end Call
end Http
end PimDav
