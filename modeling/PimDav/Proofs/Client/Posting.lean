import PimDav.Client.Invitations
import PimDav.Proofs.Client.Drafts
import PimDav.Proofs.Client.LastHeaders
import PimDav.Proofs.Client.Storing
import PimDav.Proofs.Xml.OneSpace

/-!
# Documents that are posted

Invitations are answered and folders shared by posting a document.  All names of such a
document are in the namespace of the protocol, and the server gets it in a single request.
-/

namespace PimDav

open Http (Call Field Request)
open Xml (Alike Binding Element IsPlainBelow Tag)

/-- The root of a posted document. -/
def davRoot (name : String) : Element :=
  (Element.new ("d:" ++ name)).attr "xmlns:d" Space.dav

/-- The bindings inside such a root. -/
theorem spaceOf_davRoot
    (name : String) :
    Binding.spaceOf ((davRoot name).tag.declared Binding.builtin) "d" = some Space.dav := by
  have hdeclared : (davRoot name).tag.declared Binding.builtin =
      (davRoot "").tag.declared Binding.builtin := rfl
  rw [hdeclared]
  decide +kernel

/-- The bytes of such a document are read as the tree that was written, with all names in the
namespace of the protocol. -/
theorem parse_davRoot
    {e other : Element}
    {strings : List String}
    {name : String}
    (halike : Alike e other strings)
    (htag : e.tag = (davRoot name).tag)
    (hplain : IsPlainBelow "d" e) :
    Xml.parse (Utf8.encode e.document) = .ok (e.retag (Tag.inSpace Space.dav)) := by
  have hspace : Binding.spaceOf (e.tag.declared Binding.builtin) "d" = some Space.dav := by
    rw [htag, spaceOf_davRoot]
  have hroot : e.tag.HasPrefix "d" := ⟨name, congrArg Tag.name htag⟩
  rw [Xml.parse_document halike.built.isJoined halike.isWellFormed,
    Element.placed_eq_retag hspace (by decide) hroot hplain]

namespace Client

/-- The call that posts a document. -/
def posted
    (href : String)
    (document : Element) : Call :=
  .ofType "POST" href Sharing.contentType (Utf8.encode document.document)

/-- A document is posted with one attempt. -/
theorem attempts_post
    (href : String)
    (document : Element)
    (a : Account)
    (v : Server) :
    (post href document).attempts a v = [Exchange.attempt a (posted href document) v] := by
  have hvalue : Field.isValue (Field.ofText "content-type" Sharing.contentType).value = true := by
    decide +kernel
  rw [post, Call.typed_eq_ok hvalue, Plan.bind_eq, Plan.ofExcept, Plan.andThen, Plan.bind_eq,
    Plan.call, Plan.andThen, Plan.attempts, posted]
  split <;> rfl

/-- A plan that does nothing but post a document, whatever the session is: it makes this
request and no other, and the body of the request is read as the document. -/
structure Posts
    (a : Account)
    (uri : Uri)
    (root : Element)
    (p : Plan Unit)
    (r : Request) : Prop where
  requests : ∀ s : Session,
    ((p.attempts a s.server).flatMap fun t => Exchange.requests a t.call) = [r]
  received : ∀ s : Session, s.server.reachable = true →
    (p.run a s).2.server.received = s.server.received ++ [r]
  method : r.method = "POST"
  uri : r.uri = uri
  contentType : r.headers.all "content-type" = [.ofText "content-type" Sharing.contentType]
  body : Xml.parse r.body = .ok root

theorem posts_post
    {a : Account}
    {href : String}
    {uri : Uri}
    {document root : Element}
    (hhref : a.base.resolve href = .ok uri)
    (hroot : Xml.parse (Utf8.encode document.document) = .ok root) :
    Posts a uri root (post href document) (Exchange.request a (posted href document) uri) := by
  have hrequests : ∀ s : Session,
      (((post href document).attempts a s.server).flatMap
        fun t => Exchange.requests a t.call) =
          [Exchange.request a (posted href document) uri] := by
    intro s
    have hone : Exchange.requests a (posted href document) =
        [Exchange.request a (posted href document) uri] := by
      have hcall : (posted href document).href = href := rfl
      rw [Exchange.requests, hcall, hhref]
    rw [attempts_post, List.flatMap_singleton]
    exact hone
  obtain ⟨hmethod, hbody, htype⟩ := Exchange.request_ofType a "POST" href Sharing.contentType
    (Utf8.encode document.document) uri
  constructor
  · exact hrequests
  · intro s hreachable
    rw [(Plan.leadTo_run a (post href document) s).server hreachable, hrequests]
  · exact hmethod
  · rfl
  · exact htype
  · exact (congrArg Xml.parse hbody).trans hroot

end Client
end PimDav
