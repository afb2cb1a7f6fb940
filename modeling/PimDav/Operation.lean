import PimDav.Client.Folders
import PimDav.Client.Invitations
import PimDav.Client.Items

/-!
# Operations

Everything that a client can be asked to do, as data, with what it hands out.
-/

namespace PimDav

open Http (Call Receipt)

inductive Operation where
  | discover (k : Kind)
  | checkHealth
  | capabilities
  | listFolders (k : Kind)
  | folderAt (href : String)
  | createFolder (f : Folder)
  | updateFolder (f : Folder)
  | delete (href : String)
  | store (item : Item)
  | search (folder : String) (k : Kind) (component : Option String)
  | fetch (folder : String) (k : Kind) (hrefs : List String)
  | notificationHome
  | listNotifications (topics : List Topic)
  | notificationAt (href : String)
  | answerInvitation (href : String) (reply : InviteReply)
  | share (s : Share)
  /-- The collection of notifications of a given principal. -/
  | notificationHomeOf (principal : String)
  /-- A call of the caller's own making. -/
  | call (c : Call)
  deriving DecidableEq, Repr

inductive Outcome where
  | nothing
  | found (result : Option Discovery.Found)
  | flag (value : Bool)
  | tokens (values : List String)
  | folders (list : Option (List Folder))
  | folder (f : Option Folder)
  | item (i : Item)
  | items (list : List Item)
  | href (h : Option String)
  | notifications (list : List Notification)
  | notification (n : Option Notification)
  | receipt (r : Receipt)
  deriving DecidableEq, Repr

namespace Operation

/-- How an operation is carried out under a base. -/
def plan (base : Uri) : Operation → Plan Outcome
  | discover k => do return .found (← Discovery.search base k)
  | checkHealth => do return .flag (← Client.isHealthy base)
  | capabilities => do return .tokens (← Client.capabilities)
  | listFolders k => do return .folders (← Client.listFolders base k)
  | folderAt href => do return .folder (← Client.folderAt base href)
  | createFolder f => do let _ ← Client.createFolder f; return .nothing
  | updateFolder f => do let _ ← Client.updateFolder f; return .nothing
  | delete href => do let _ ← Client.delete href; return .nothing
  | store item => do return .item (← Client.store item)
  | search folder k component => do return .items (← Client.search base folder k component)
  | fetch folder k hrefs => do return .items (← Client.fetch base folder k hrefs)
  | notificationHome => do return .href (← Client.notificationHome base)
  | listNotifications topics => do
    return .notifications (← Client.listNotifications base topics)
  | notificationAt href => do return .notification (← Client.notificationAt base href)
  | answerInvitation href reply => do
    let _ ← Client.answerInvitation base href reply
    return .nothing
  | share s => do let _ ← Client.share s; return .nothing
  | notificationHomeOf principal => do
    return .href (← Discovery.notificationHome base principal)
  | call c => do return .receipt (← Plan.call c)

end Operation
end PimDav
