import PimDav.Http.Field
import PimDav.Kind
import PimDav.Response

/-!
# Items

An item is an event, a task or a contact on the server.  Its payload is carried
as it is and never looked into.
-/

namespace PimDav

structure Item where
  kind : Kind
  href : String
  /-- The entity tag without its quotes, once a server reported one. -/
  tag : Option String := none
  payload : Option String := none
  deriving DecidableEq, Repr

namespace Item

/-- A new item, of which no server knows yet. -/
def new
    (kind : Kind)
    (href payload : String) : Item :=
  { kind, href, payload := some payload }

/-- The item that a response describes, under the href that the server sent. The
payload keeps all its blanks. -/
def ofResponse
    (kind : Kind)
    (response : Xml.Element) : Item where
  kind := kind
  href := (Response.href? response).getD ""
  tag := (Response.propertyText? response "getetag").map Http.Headers.unquoteTag
  payload :=
    (Response.property? response kind.vocabulary.payload).map Xml.Element.textContent

def contentType (item : Item) : String :=
  item.kind.vocabulary.contentType

/-- The bytes that store the item. -/
def body (item : Item) : Bytes :=
  Utf8.encode (item.payload.getD "")

end Item
end PimDav
