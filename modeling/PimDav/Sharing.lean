import PimDav.Notification

/-!
# Sharing

An invitation is answered with a reply, and a folder is shared by saying who may
do what with it.
-/

namespace PimDav

open Xml (Element)

namespace Sharing

/-- The content type of both documents. -/
def contentType : String :=
  "application/davsharing+xml; charset=utf-8"

end Sharing

/-- The answer to an invitation. -/
structure InviteReply where
  accept : Bool
  /-- The collection in which the shared folder should appear. -/
  createIn : Option String := none
  comment : Option String := none
  deriving DecidableEq, Repr

namespace InviteReply

def status (reply : InviteReply) : InviteStatus :=
  if reply.accept then .accepted else .declined

/-- The document of a reply; its collection is written as it is given. -/
def document (reply : InviteReply) : Element :=
  let place := reply.createIn.map fun href =>
    (Element.new "d:create-in").child ((Element.new "d:href").text href)
  let comment := reply.comment.map (Element.new "d:comment").text
  Element.new "d:invite-reply"
    |>.attr "xmlns:d" Space.dav
    |>.child (.new ("d:" ++ reply.status.elementName))
    |>.children ([place, comment].filterMap id)

end InviteReply

structure Sharee where
  href : String
  access : Access
  comment : Option String := none
  deriving DecidableEq, Repr

/-- Changes to the shares of one folder. -/
structure Share where
  href : String
  sharees : List Sharee := []
  deriving DecidableEq, Repr

namespace Sharee

def element (sharee : Sharee) : Element :=
  let access := (Element.new "d:share-access").child
    (.new ("d:" ++ sharee.access.elementName))
  Element.new "d:sharee"
    |>.child ((Element.new "d:href").text sharee.href)
    |>.children (sharee.comment.map (Element.new "d:comment").text).toList
    |>.child access

end Sharee

namespace Share

def document (share : Share) : Element :=
  Element.new "d:share-resource"
    |>.attr "xmlns:d" Space.dav
    |>.children (share.sharees.map Sharee.element)

end Share
end PimDav
