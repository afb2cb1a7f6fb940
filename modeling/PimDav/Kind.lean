import PimDav.Fault
import PimDav.Text.Blank
import PimDav.Text.Caseless

/-!
# Kinds

Three kinds of items are kept on a server: events and tasks in calendars,
contacts in address books.  Each kind has its own words in the protocol.
-/

namespace PimDav

/-! The namespaces of the properties that are read and written. -/

namespace Space

def dav : String := "DAV:"

def calDav : String := "urn:ietf:params:xml:ns:caldav"

def cardDav : String := "urn:ietf:params:xml:ns:carddav"

def calendarServer : String := "http://calendarserver.org/ns/"

def appleIcal : String := "http://apple.com/ns/ical/"

/-- The namespace of the flag for alarms. -/
def kolab : String := "Kolab:"

end Space

inductive Kind where
  | event
  | task
  | contact
  deriving DecidableEq, Repr

/-- The words of the protocol for items of one kind. -/
structure Vocabulary where
  component : String
  space : String
  /-- The collection under which principals and homes live. -/
  rootSegment : String
  /-- The mark of a collection of this kind among its resource types. -/
  resourceType : String
  homeSet : String
  query : String
  multiget : String
  /-- The property that holds the payload of an item. -/
  payload : String
  contentType : String
  deriving DecidableEq, Repr

namespace Vocabulary

def event : Vocabulary where
  component := "VEVENT"
  space := Space.calDav
  rootSegment := "calendars"
  resourceType := "calendar"
  homeSet := "calendar-home-set"
  query := "calendar-query"
  multiget := "calendar-multiget"
  payload := "calendar-data"
  contentType := "text/calendar; charset=utf-8"

def task : Vocabulary :=
  { event with component := "VTODO" }

def contact : Vocabulary where
  component := "VCARD"
  space := Space.cardDav
  rootSegment := "addressbooks"
  resourceType := "addressbook"
  homeSet := "addressbook-home-set"
  query := "addressbook-query"
  multiget := "addressbook-multiget"
  payload := "address-data"
  contentType := "text/vcard; charset=utf-8"

end Vocabulary

namespace Kind

def vocabulary : Kind → Vocabulary
  | event => .event
  | task => .task
  | contact => .contact

/-- The name of the component, which is also how a kind is shown. -/
def component (k : Kind) : String :=
  k.vocabulary.component

/-- Whether items of this kind are kept in calendars. -/
def isCalendar : Kind → Bool
  | event => true
  | task => true
  | contact => false

/-- The kind that a name stands for: the name of its component or its plain name,
whatever the case and the blanks around it. -/
def ofName (name : String) : Except Fault Kind :=
  match Text.upper (Text.trim name) with
  | "VEVENT" => .ok event
  | "EVENT" => .ok event
  | "VTODO" => .ok task
  | "TASK" => .ok task
  | "VCARD" => .ok contact
  | "CONTACT" => .ok contact
  | _ => .error (.unknownKind name)

theorem ofName_component
    (k : Kind) :
    ofName k.component = .ok k := by
  cases k <;> rfl

end Kind
end PimDav
