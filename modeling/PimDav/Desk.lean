import PimDav.Operation

/-!
# Desks

At a desk somebody works with an account: items are kept under names, directives
are given one after another, and each is answered by a record of what it led to.
-/

namespace PimDav

structure Desk where
  account : Account
  lastHeaders : Http.Headers := {}
  /-- The items that are kept, latest first. -/
  items : List (String × Item) := []
  deriving DecidableEq, Repr

inductive Directive where
  | setDumps (on : Bool)
  | setTimeout (limit : Duration)
  | principalOf (email : String)
  /-- An item is kept under a name. -/
  | keep (name : String) (item : Item)
  /-- The item with a name is stored on the server. -/
  | store (name : String)
  /-- An operation; the items that it hands out may be kept under numbered names. -/
  | operate (operation : Operation) (keepAs : Option String)
  /-- A number of steps of a discovery. -/
  | steps (k : Kind) (count : Nat)
  deriving DecidableEq, Repr

/-- What a directive hands out. -/
inductive Result where
  | nothing
  | text (value : String)
  | item (i : Item)
  | noSuchItem
  /-- How storing went, and the item afterwards. -/
  | stored (done : Except Fault Unit) (item : Item)
  | steps (outcomes : List (Except Fault Discovery.Stage × Discovery.Stage))
  | outcome (o : Except Fault Outcome)

/-- What a directive led to. -/
structure Record where
  result : Result
  received : List Http.Request
  unused : Nat
  lastHeaders : Http.Headers
  log : List Entry

namespace Desk

def find?
    (d : Desk)
    (name : String) : Option Item :=
  d.items.lookup name

def put
    (d : Desk)
    (name : String)
    (item : Item) : Desk :=
  { d with items := (name, item) :: d.items }

/-- The items kept under a name followed by their numbers. -/
def putAll
    (d : Desk)
    (name : String)
    (items : List Item) : Desk :=
  items.zipIdx.foldl (fun d (item, n) => d.put (name ++ toString n) item) d

/-- The items that an outcome holds, kept if a name is given for them. -/
def keepItems
    (d : Desk)
    (keepAs : Option String) : Except Fault Outcome → Desk
  | .ok (.items items) =>
    match keepAs with
    | some name => d.putAll name items
    | none => d
  | _ => d

/-- One directive in a session. -/
def obey
    (d : Desk)
    (s : Session) : Directive → Result × Desk × Session
  | .setDumps on => (.nothing, { d with account := { d.account with dumps := on } }, s)
  | .setTimeout limit => (.nothing, { d with account := { d.account with timeout := limit } }, s)
  | .principalOf email => (.text (d.account.base.principalOf email), d, s)
  | .keep name item => (.item item, d.put name item, s)
  | .store name =>
    match d.find? name with
    | none => (.noSuchItem, d, s)
    | some item =>
      match (Client.store item).run d.account s with
      | (.ok stored, s) => (.stored (.ok ()) stored, d.put name stored, s)
      | (.error f, s) => (.stored (.error f) item, d, s)
  | .operate operation keepAs =>
    let (outcome, s) := (operation.plan d.account.base).run d.account s
    (.outcome outcome, d.keepItems keepAs outcome, s)
  | .steps k count =>
    let (outcomes, s) := Discovery.steps d.account k count .start s
    (.steps outcomes, d, s)

/-- One directive, with the server that it meets. -/
def handle
    (d : Desk)
    (server : Server)
    (c : Directive) : Record × Desk :=
  let (result, d, s) := d.obey { server, lastHeaders := d.lastHeaders } c
  ({ result
     received := s.server.received
     unused := s.server.replies.length
     lastHeaders := s.lastHeaders
     log := s.log },
   { d with lastHeaders := s.lastHeaders })

end Desk
end PimDav
