import PimDav.Client.Log
import PimDav.Discovery
import PimDav.Sharing

/-!
# Work on notifications and shares
-/

namespace PimDav
namespace Client

open Http (Call Depth Receipt Received)
open Xml (Element)

/-- The collection of notifications of the current principal, if both are found. -/
def notificationHome (base : Uri) : Plan (Option String) := do
  let stage ← Discovery.step base .event .start
  match stage with
  | .principal href => Discovery.notificationHome base href
  | _ => return none

/-- The document of a notification; an empty body has none. A body is read as
markup even without a declaration. -/
def documentOf (receipt : Receipt) : Except Fault (Option Element) :=
  match receipt.body with
  | .document root => .ok (some root)
  | .bytes raw =>
    if raw.all Text.isBodyBlank then .ok none
    else
      match Xml.parse raw with
      | .ok root => .ok (some root)
      | .error p => .error (.markup p)

/-- The notification in a document: its root, or the first one below. -/
def notificationIn?
    (root : Element)
    (href : String) : Option Notification :=
  let e := if root.is "notification" then some root else root.firstDescendant? "notification"
  e.map (Notification.ofElement · href)

/-- One notification, if there is one at the href. -/
def notificationAt
    (base : Uri)
    (href : String) : Plan (Option Notification) := do
  let receipt ← Plan.call (.bare "GET" href)
  let root ← Plan.ofExcept (documentOf receipt)
  return root.bind (notificationIn? · (base.relative href))

/-- The notifications of a listing that are worth fetching: those with an href and
one of the topics, or any topic when none is asked for. -/
def wanted
    (topics : List Topic)
    (responses : List Element) : List Notification :=
  (responses.filterMap Notification.ofResponse?).filter fun n =>
    (topics.isEmpty || n.topic.any topics.contains) && !n.href.isEmpty

/-- Notifications fetched one after another. One whose document says no topic has
the topic that the listing said. -/
def fetchNotifications (base : Uri) : List Notification → Plan (List Notification)
  | [] => .done []
  | listed :: rest => do
    let fetched ← notificationAt base listed.href
    let later ← fetchNotifications base rest
    return (fetched.map fun n => { n with topic := n.topic.or listed.topic }).toList ++ later

/-- The notifications with the given topics, or all of them. -/
def listNotifications
    (base : Uri)
    (topics : List Topic) : Plan (List Notification) := do
  let home ← notificationHome base
  match home with
  | none => return []
  | some home =>
    let receipt ← Plan.callNoting
      (complaint "failed to list notifications" [("home", home)])
      (.propfind home .one Notification.listing)
    let notifications ← fetchNotifications base (wanted topics receipt.responses)
    Plan.say (entry .debug "listed notifications"
      [("count", toString notifications.length)])
    return notifications

/-- A document posted under the content type of sharing. -/
def post
    (href : String)
    (document : Element) : Plan Unit := do
  let call ← Plan.ofExcept
    (Call.typed "POST" href Sharing.contentType (Utf8.encode document.document))
  let _ ← Plan.call call

/-- An invitation is answered; the collection of the reply may be given in either
form. -/
def answerInvitation
    (base : Uri)
    (href : String)
    (reply : InviteReply) : Plan Unit :=
  post href { reply with createIn := reply.createIn.map base.absolute }.document

def share (s : Share) : Plan Unit :=
  post s.href s.document

end Client
end PimDav
