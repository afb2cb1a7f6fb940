import PimDav.Client.Log
import PimDav.Item
import PimDav.Plan
import PimDav.Report

/-!
# Work on items
-/

namespace PimDav
namespace Client

open Http (Call Depth)
open Xml (Element)

/-- An item is stored at its href, whether one is there already or not. It comes
back with the entity tag of the answer, if the answer has one. -/
def store (item : Item) : Plan Item :=
  if item.body.isEmpty then .fail (.emptyItem item.href)
  else do
    let call ← Plan.ofExcept (Call.typed "PUT" item.href item.contentType item.body)
    let receipt ← Plan.call call
    return { item with tag := receipt.headers.entityTag?.or item.tag }

/-- The items that a multistatus answer describes, without those that it reports
as failed, their hrefs relative to the root. -/
def itemsOf
    (base : Uri)
    (k : Kind)
    (responses : List Element) : List Item :=
  (responses.filter Response.isOk).map fun response =>
    let item := Item.ofResponse k response
    { item with href := base.relative item.href }

/-- The hrefs and entity tags of the items in a folder. -/
def search
    (base : Uri)
    (folder : String)
    (k : Kind)
    (component : Option String) : Plan (List Item) := do
  let receipt ← Plan.callNoting
    (complaint "failed to search objects" [("kind", k.component), ("folder_href", folder)])
    (.report folder .one (Report.search k component))
  return itemsOf base k receipt.responses

/-- The items with the given hrefs, with their payloads. Without an href there is
nothing to ask for. -/
def fetch
    (base : Uri)
    (folder : String)
    (k : Kind)
    (hrefs : List String) : Plan (List Item) :=
  match Report.multiget? k ((hrefs.filterMap Text.trimmed?).map base.absolute) with
  | none => .done []
  | some document => do
    let receipt ← Plan.callNoting
      (complaint "failed to fetch objects" [("kind", k.component), ("folder_href", folder)])
      (.report folder .one document)
    return itemsOf base k receipt.responses

end Client
end PimDav
