import PimDav.Client.Log
import PimDav.Discovery
import PimDav.Folder

/-!
# Work on folders
-/

namespace PimDav
namespace Client

open Http (Call Depth)
open Xml (Element)

/-- What a server is capable of. -/
def capabilities : Plan (List String) := do
  let receipt ← Plan.call (.bare "OPTIONS" "")
  return receipt.headers.capabilities

/-- Whether the home for events can be found. -/
def isHealthy (base : Uri) : Plan Bool := do
  let found ← Discovery.search base .event
  return found.isSome

/-- The folder that a response describes, its href relative to the root. -/
def folderOf
    (base : Uri)
    (response : Element) : Folder :=
  let folder := Folder.ofResponse response
  { folder with href := base.relative folder.href }

/-- The folders for items of a kind under the home that is found for it. -/
def listFolders
    (base : Uri)
    (k : Kind) : Plan (Option (List Folder)) := do
  let found ← Discovery.search base k
  match found with
  | none => return none
  | some found =>
    let receipt ← Plan.callNoting
      (complaint "failed to list folders" [("kind", k.component)])
      (.propfind found.home .one (Folder.listing (some k)))
    let folders := (receipt.responses.map (folderOf base)).filter (·.supports k)
    Plan.say (entry .debug "listed folders"
      [("kind", k.component), ("count", toString folders.length)])
    return some folders

/-- One folder, if the server describes it. -/
def folderAt
    (base : Uri)
    (href : String) : Plan (Option Folder) := do
  let receipt ← Plan.call (.propfind href .zero (Folder.listing none))
  return receipt.responses.head?.map (folderOf base)

def createFolder (f : Folder) : Plan Unit := do
  let _ ← Plan.call (.mkcol f.href f.creation)

def updateFolder (f : Folder) : Plan Unit := do
  let _ ← Plan.call (.proppatch f.href f.update)

/-- The end of a folder or an item. -/
def delete (href : String) : Plan Unit := do
  let _ ← Plan.call (.bare "DELETE" href)

end Client
end PimDav
