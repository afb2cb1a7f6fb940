import PimDav.Kind
import PimDav.Plan
import PimDav.Response

/-!
# Discovery

The home of an account for a kind is found in two steps: the first asks for the
principal, the second asks the principal for its home.  A step that finds nothing
ends the search; a step that fails leaves it where it was.
-/

namespace PimDav

open Http (Call Depth)
open Xml (Element)

namespace Discovery

/-- What a search that found nothing was looking for. -/
inductive Missing where
  | principal
  | homeSet
  deriving DecidableEq, Repr

/-- How far a search has come. All hrefs are relative to the root. -/
inductive Stage where
  | start
  | principal (href : String)
  | home (principal home : String)
  | failed (missing : Missing)
  deriving DecidableEq, Repr

namespace Stage

/-- Whether nothing is left to be done. -/
def isFinal : Stage → Bool
  | start => false
  | principal _ => false
  | home .. => true
  | failed _ => true

end Stage

/-- A principal and its home. -/
structure Found where
  principal : String
  home : String
  deriving DecidableEq, Repr

namespace Stage

def found? : Stage → Option Found
  | home href below => some ⟨href, below⟩
  | _ => none

end Stage

/-- A document that asks for one property. -/
def asking
    (spaces : List (String × String))
    (property : String) : Element :=
  let root := spaces.foldl (fun e s => e.attr s.1 s.2) (Element.new "d:propfind")
  root.child ((Element.new "d:prop").child (.new property))

def principalQuestion : Element :=
  asking [("xmlns:d", Space.dav)] "d:current-user-principal"

def homeQuestion (k : Kind) : Element :=
  asking [("xmlns:d", Space.dav), ("xmlns:c", k.vocabulary.space)] ("c:" ++ k.vocabulary.homeSet)

def notificationQuestion : Element :=
  asking [("xmlns:d", Space.dav)] "d:notification-URL"

def entry
    (level : Level)
    (message : String)
    (details : List (String × String)) : Entry :=
  { level, origin := .discovery, message, details }

/-- The principals that a listing reports, as they were sent. -/
def principals (responses : List Element) : List String :=
  (responses.filterMap (Response.property? · "current-user-principal")).filterMap
    Response.hrefBelow?

/-- The href in a property of the first response alone. -/
def firstHref?
    (responses : List Element)
    (property : String) : Option String :=
  (responses.head?.bind (Response.property? · property)).bind Response.hrefBelow?

/-- The first step. The first principal is taken; another one is worth a warning. -/
def findPrincipal
    (base : Uri)
    (k : Kind) : Plan Stage := do
  let receipt ← Plan.call
    (.propfind (k.vocabulary.rootSegment ++ "/") .one principalQuestion)
  match principals receipt.responses with
  | [] =>
    Plan.say (entry .error "principal discovery returned no current-user-principal"
      [("kind", k.component)])
    return .failed .principal
  | sent :: more =>
    match more.find? (· != sent) with
    | some other =>
      Plan.say (entry .warn "server reported several principals, using the first"
        [("kind", k.component), ("principal", sent), ("other", other)])
    | none => pure ()
    let href := base.relative sent
    Plan.say (entry .debug "principal resolved"
      [("kind", k.component), ("principal_href", href)])
    return .principal href

/-- The second step. -/
def findHome
    (base : Uri)
    (k : Kind)
    (principal : String) : Plan Stage := do
  let receipt ← Plan.call (.propfind principal .zero (homeQuestion k))
  match firstHref? receipt.responses k.vocabulary.homeSet with
  | none =>
    Plan.say (entry .error ("home-set discovery returned no " ++ k.vocabulary.homeSet)
      [("kind", k.component), ("principal_href", principal)])
    return .failed .homeSet
  | some sent =>
    let href := base.relative sent
    Plan.say (entry .debug "home set resolved"
      [("kind", k.component), ("home_href", href)])
    return .home principal href

/-- The next step from a stage. Nothing is done at a final one. -/
def step
    (base : Uri)
    (k : Kind) : Stage → Plan Stage
  | .start => findPrincipal base k
  | .principal href => findHome base k href
  | .home principal home => .done (.home principal home)
  | .failed missing => .done (.failed missing)

/-- The whole search; two steps always suffice. -/
def search
    (base : Uri)
    (k : Kind) : Plan (Option Found) := do
  let stage ← step base k .start
  let stage ← step base k stage
  return stage.found?

/-- A number of steps, one after another, each with its outcome and the stage that
it leaves. A step that fails is not the end. -/
def steps
    (a : Account)
    (k : Kind) :
    Nat →
    Stage →
    Session →
    List (Except Fault Stage × Stage) × Session
  | 0, _, s => ([], s)
  | n + 1, stage, s =>
    match (step a.base k stage).run a s with
    | (.ok next, s) =>
      let (later, s) := steps a k n next s
      ((.ok next, next) :: later, s)
    | (.error f, s) =>
      let (later, s) := steps a k n stage s
      ((.error f, stage) :: later, s)

/-- The collection of notifications of a principal, if it has one. -/
def notificationHome
    (base : Uri)
    (principal : String) : Plan (Option String) := do
  let receipt ← Plan.call (.propfind principal .zero notificationQuestion)
  match firstHref? receipt.responses "notification-URL" with
  | some sent =>
    let home := base.relative sent
    Plan.say (entry .debug "notification collection resolved"
      [("principal_href", principal), ("home", home)])
    return some home
  | none =>
    Plan.say (entry .debug "principal has no notification-URL" [("principal_href", principal)])
    return none

end Discovery
end PimDav
