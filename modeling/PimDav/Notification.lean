import PimDav.Kind
import PimDav.Response

/-!
# Notifications

A server files invitations to shared folders, and the replies to them, in a
collection of notifications.
-/

namespace PimDav

open Xml (Element)

/-- What a notification is about, by the name of its element. -/
inductive Topic where
  | invite
  | reply
  | other (name : String)
  deriving DecidableEq, Repr

namespace Topic

def ofName (name : String) : Topic :=
  match name with
  | "share-invite-notification" => invite
  | "share-reply-notification" => reply
  | _ => other name

def name : Topic → String
  | invite => "share-invite-notification"
  | reply => "share-reply-notification"
  | other name => name

@[simp] theorem name_ofName
    (s : String) :
    (ofName s).name = s := by
  unfold ofName
  split <;> simp [name]

end Topic

/-- What became of an invitation. -/
inductive InviteStatus where
  | noResponse
  | accepted
  | declined
  | invalid
  | deleted
  deriving DecidableEq, Repr

namespace InviteStatus

def every : List InviteStatus :=
  [noResponse, accepted, declined, invalid, deleted]

def elementName : InviteStatus → String
  | noResponse => "invite-noresponse"
  | accepted => "invite-accepted"
  | declined => "invite-declined"
  | invalid => "invite-invalid"
  | deleted => "invite-deleted"

def ofElementName? (name : String) : Option InviteStatus :=
  every.find? (·.elementName == name)

@[simp] theorem ofElementName?_elementName
    (a : InviteStatus) :
    ofElementName? a.elementName = some a := by
  cases a <;> rfl

end InviteStatus

/-- What a user may do with a shared folder. -/
inductive Access where
  | read
  | readWrite
  /-- An earlier share is taken back. -/
  | noAccess
  deriving DecidableEq, Repr

namespace Access

def every : List Access :=
  [read, readWrite, noAccess]

def elementName : Access → String
  | read => "read"
  | readWrite => "read-write"
  | noAccess => "no-access"

def ofElementName? (name : String) : Option Access :=
  every.find? (·.elementName == name)

@[simp] theorem ofElementName?_elementName
    (a : Access) :
    ofElementName? a.elementName = some a := by
  cases a <;> rfl

end Access

structure Notification where
  href : String
  topic : Option Topic := none
  access : Option Access := none
  status : Option InviteStatus := none
  /-- Who invited, or who replied. -/
  principal : Option String := none
  deriving DecidableEq, Repr

namespace Notification

/-- The first of two elements that is found below another one. -/
def firstOf?
    (e : Element)
    (name other : String) : Option Element :=
  (e.firstDescendant? name).or (e.firstDescendant? other)

/-- The topic: the first element inside a `notificationtype`, or else the first
element of the document itself whose name says that it is a notification. -/
def topicOf? (e : Element) : Option Topic :=
  let said := (e.firstDescendant? "notificationtype").bind Element.firstElement?
  let shown := e.elements.find? fun child =>
    Text.endsWith "-notification" child.localName
  (said.or shown).map fun t => Topic.ofName t.localName

/-- The notification that a document holds. Of several states the later one in
the life of an invitation counts. -/
def ofElement
    (e : Element)
    (href : String) : Notification where
  href := href
  topic := topicOf? e
  access := ((firstOf? e "access" "share-access").bind Element.firstElement?).bind fun a =>
    Access.ofElementName? a.localName
  status := InviteStatus.every.reverse.find? fun s =>
    (e.firstDescendant? s.elementName).isSome
  principal := (firstOf? e "organizer" "principal").bind Response.hrefBelow?

/-- The notification that a listing speaks of; a response without a topic speaks
of something else. -/
def ofResponse? (response : Element) : Option Notification :=
  ((Response.property? response "notificationtype").bind Element.firstElement?).map fun t =>
    { href := (Response.href? response).getD "", topic := some (.ofName t.localName) }

/-- The document that asks for the topics in a collection of notifications. -/
def listing : Element :=
  Element.new "d:propfind"
    |>.attr "xmlns:d" Space.dav
    |>.child ((Element.new "d:prop").child (.new "d:notificationtype"))

end Notification
end PimDav
