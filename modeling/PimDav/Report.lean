import PimDav.Kind
import PimDav.Text.Blank
import PimDav.Xml.Element

/-!
# Reports

The documents that search a folder and that fetch items by their hrefs.
-/

namespace PimDav
namespace Report

open Xml (Element)

def root
    (k : Kind)
    (name : String) : Element :=
  Element.new ("c:" ++ name)
    |>.attr "xmlns:d" Space.dav
    |>.attr "xmlns:c" k.vocabulary.space

/-- A filter on the components with a name. -/
def componentFilter (name : String) : Element :=
  (Element.new "c:comp-filter").attr "name" name

/-- The document that asks for the entity tags of all items of a kind. Calendars
are searched for a component, by default the one of the kind; address books are
searched without a filter. -/
def search
    (k : Kind)
    (component : Option String) : Element :=
  let root := (root k k.vocabulary.query).child
    ((Element.new "d:prop").child (.new "d:getetag"))
  if k.isCalendar then
    root.child ((Element.new "c:filter").child
      ((componentFilter "VCALENDAR").child (componentFilter (component.getD k.component))))
  else root

/-- The document that fetches the items with the given hrefs, blank ones left
out; none when there is nothing to fetch. -/
def multiget?
    (k : Kind)
    (hrefs : List String) : Option Element :=
  let wanted := hrefs.filterMap Text.trimmed?
  if wanted.isEmpty then none
  else
    let properties := Element.new "d:prop"
      |>.child (.new "d:getetag")
      |>.child (.new ("c:" ++ k.vocabulary.payload))
    some (((root k k.vocabulary.multiget).child properties).children
      (wanted.map (Element.new "d:href").text))

end Report
end PimDav
