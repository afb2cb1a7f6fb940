import PimDav.Text.Digits
import PimDav.Text.Split
import PimDav.Xml.Element

/-!
# Responses

A multistatus answer holds one `response` for every resource it speaks of.  A
response names the resource, may report a status for all of it, and lists
properties in groups with a status of their own.  Only groups that report
success, or nothing, count.
-/

namespace PimDav
namespace Response

open Xml (Element)

/-- The code of a status line: its second word, if that is a number of sixteen
bits with at most one plus sign in front. -/
def statusCode? (line : String) : Option Nat :=
  (Text.words line)[1]?.bind fun word =>
    let digits :=
      match word.toList with
      | '+' :: rest => rest
      | cs => cs
    (Text.number? 10 digits).bind fun n => if n < 65536 then some n else none

/-- Whether a status, if there is one at all, reports success. A status that
cannot be read does not. -/
def reportsSuccess : Option Element → Bool
  | none => true
  | some status =>
    match statusCode? (Text.trim status.textContent) with
    | some code => 200 ≤ code && code < 300
    | none => false

/-- The resource that a response speaks of. -/
def href? (response : Element) : Option String :=
  (response.find? "href").bind Element.trimmedText?

/-- Whether the response does not report failure for the whole resource. -/
def isOk (response : Element) : Bool :=
  reportsSuccess (response.find? "status")

/-- Whether a group of properties counts. -/
def isOkGroup (group : Element) : Bool :=
  group.is "propstat" && reportsSuccess (group.find? "status")

/-- The lists of properties that count. -/
def okProps (response : Element) : List Element :=
  (response.elements.filter isOkGroup).flatMap fun group =>
    group.elements.filter (·.is "prop")

/-- The first property with a local name among those that count. -/
def property?
    (response : Element)
    (name : String) : Option Element :=
  (okProps response).findSome? (·.find? name)

/-- The trimmed text of a property, unless there is none. -/
def propertyText?
    (response : Element)
    (name : String) : Option String :=
  (property? response name).bind Element.trimmedText?

/-- The trimmed text of the first `href` below a property, unless there is none. -/
def hrefBelow? (property : Element) : Option String :=
  (property.firstDescendant? "href").bind Element.trimmedText?

end Response
end PimDav
