import PimDav.Proofs.Client.Posting
import PimDav.Proofs.Uri.Root

/-!
# What a reply to an invitation says

A reply says whether the invitation is accepted, perhaps where the shared folder should appear
and perhaps a comment.  Neither of these two strings can make the answer another one, and
whoever reads the reply as a notification finds the answer that was given.
-/

namespace PimDav

open Http (Request)
open Xml (Element IsPlainBelow IsPlainIn Tag)

namespace InviteStatus

/-- Of all states only its own name is found. -/
theorem is_new
    (a b : InviteStatus) :
    (Element.new ("d:" ++ a.elementName)).is b.elementName = (a == b) := by
  cases a <;> cases b <;> decide

theorem localName_new
    (a : InviteStatus) :
    (Element.new ("d:" ++ a.elementName)).localName = a.elementName := by
  cases a <;> decide

theorem find?_reverse
    (a : InviteStatus) :
    every.reverse.find? (a == ·) = some a := by
  cases a <;> rfl

end InviteStatus

namespace InviteReply

/-- An element of the protocol that holds a text and nothing else. -/
structure ShowsText
    (name text : String)
    (e : Element) : Prop where
  name : e.expandedName = (name, some Space.dav)
  elements : e.elements = []
  text : e.textContent = text

/-- An element of the protocol that holds an href and nothing else. -/
structure ShowsPlace
    (href : String)
    (e : Element) : Prop where
  name : e.expandedName = ("create-in", some Space.dav)
  inside : ∃ d, e.onlyChild? = some d ∧ ShowsText "href" href d

/-- What is inside a reply: the answer, the place if there is one, and the comment if there
is one. -/
structure Says
    (base : Uri)
    (reply : InviteReply)
    (root : Element) : Prop where
  name : root.expandedName = ("invite-reply", some Space.dav)
  elements : ∃ (answer : Element) (place comment : Option Element),
    root.elements = answer :: (place.toList ++ comment.toList) ∧
    ShowsText reply.status.elementName "" answer ∧
    Option.Rel ShowsPlace (reply.createIn.map base.absolute) place ∧
    Option.Rel (ShowsText "comment") reply.comment comment

/-- The element of a place. -/
def placeElement (href : String) : Element :=
  (Element.new "d:create-in").child ((Element.new "d:href").text href)

def answerElement (reply : InviteReply) : Element :=
  .new ("d:" ++ reply.status.elementName)

/-- What comes after the answer. -/
def details (reply : InviteReply) : List Element :=
  (reply.createIn.map placeElement).toList ++
    (reply.comment.map (Element.new "d:comment").text).toList

theorem document_eq_children
    (reply : InviteReply) :
    reply.document = ((davRoot "invite-reply").child reply.answerElement).children reply.details :=
  document_eq reply

theorem showsText_retag
    {written name : String}
    (hname : (Element.new written).localName = name)
    (text : String) :
    ShowsText name text (((Element.new written).text text).retag (Tag.inSpace Space.dav)) where
  name := congrArg (·, some Space.dav) hname
  elements := by
    rw [Element.elements_retag, Element.elements, Element.text, Xml.Content.elements_addText]
    rfl
  text := by rw [Element.textContent_retag, Element.textContent_new_text]

theorem showsPlace_retag
    (href : String) :
    ShowsPlace href ((placeElement href).retag (Tag.inSpace Space.dav)) where
  name := congrArg (·, some Space.dav) (by decide : (Element.new "d:create-in").localName = _)
  inside := by
    refine ⟨_, ?_, showsText_retag (by decide : (Element.new "d:href").localName = _) href⟩
    rw [Element.onlyChild?_retag, placeElement, Element.onlyChild?_new_child]
    rfl

/-- The reply with the root in front of its place, as it is sent. -/
def rooted
    (base : Uri)
    (reply : InviteReply) : InviteReply :=
  { reply with createIn := reply.createIn.map base.absolute }

section Document

variable (reply : InviteReply)

theorem tag_document :
    reply.document.tag = (davRoot "invite-reply").tag := by
  rw [document_eq_children, Element.tag_children]
  rfl

theorem elements_document :
    reply.document.elements = reply.answerElement :: reply.details := by
  rw [document_eq_children, Element.elements_children, Element.elements_child]
  rfl

theorem isPlain_details :
    ∀ d ∈ reply.details, IsPlainIn "d" d ∧ IsPlainBelow "d" d := by
  have hplace : ∀ href, IsPlainIn "d" (placeElement href) ∧ IsPlainBelow "d" (placeElement href) :=
    fun href =>
      ⟨(Xml.isPlainIn_new "d" "create-in").of_tag rfl, (IsPlainBelow.new _).child
        ⟨(Xml.isPlainIn_new "d" "href").of_tag rfl, (IsPlainBelow.new _).text href⟩⟩
  intro d hd
  rcases List.mem_append.1 hd with hd | hd
  · obtain ⟨href, -, rfl⟩ := Option.map_eq_some_iff.1 (Option.mem_toList.1 hd)
    exact hplace href
  · obtain ⟨text, -, rfl⟩ := Option.map_eq_some_iff.1 (Option.mem_toList.1 hd)
    exact ⟨(Xml.isPlainIn_new "d" "comment").of_tag rfl, (IsPlainBelow.new _).text text⟩

theorem isPlainBelow_document :
    IsPlainBelow "d" reply.document := by
  have hanswer : IsPlainIn "d" reply.answerElement :=
    Xml.isPlainIn_new "d" reply.status.elementName
  rw [document_eq_children]
  exact (((IsPlainBelow.new "d:invite-reply").attr _ _).child
    ⟨hanswer, IsPlainBelow.new _⟩).children reply.isPlain_details

/-- No element of the details has the name of a state. -/
theorem any_details
    (state : InviteStatus) :
    (reply.details.flatMap fun d => d :: d.deepElements).any (·.is state.elementName) = false := by
  have hothers : (Element.new "d:create-in").is state.elementName = false ∧
      (Element.new "d:href").is state.elementName = false ∧
      (Element.new "d:comment").is state.elementName = false := by
    cases state <;> decide
  rw [details]
  cases reply.createIn <;> cases reply.comment <;> simp [placeElement, hothers]

/-- The only state that is found in a reply is the one that was given. -/
theorem isSome_firstDescendant?_document
    (state : InviteStatus) :
    (reply.document.firstDescendant? state.elementName).isSome = (reply.status == state) := by
  have hbelow : reply.document.deepElements =
      reply.answerElement :: reply.details.flatMap fun d => d :: d.deepElements := by
    rw [document_eq_children, Element.deepElements_children, Element.deepElements_child]
    rfl
  rw [Element.isSome_firstDescendant?, hbelow, List.any_cons, any_details, Bool.or_false]
  exact reply.status.is_new state

/-- A reply that was posted is a notification of the answer that was given. -/
theorem status_ofElement
    (href : String) :
    (Notification.ofElement (reply.document.retag (Tag.inSpace Space.dav)) href).status =
      some reply.status := by
  have hfound : (fun state : InviteStatus =>
      ((reply.document.retag (Tag.inSpace Space.dav)).firstDescendant?
        state.elementName).isSome) = fun state => reply.status == state := by
    funext state
    rw [Element.firstDescendant?_retag (Tag.keepsNames_inSpace Space.dav), Option.isSome_map,
      isSome_firstDescendant?_document]
  rw [Notification.ofElement, hfound, InviteStatus.find?_reverse]

/-- The document of a reply says what the reply says. -/
theorem says_document
    (base : Uri) :
    Says base reply ((reply.rooted base).document.retag (Tag.inSpace Space.dav)) where
  name := by
    rw [Element.expandedName_retag_inSpace, Element.localName, tag_document]
    exact congrArg (·, _) (by decide)
  elements := by
    have hanswer : ShowsText reply.status.elementName ""
        (reply.answerElement.retag (Tag.inSpace Space.dav)) :=
      showsText_retag reply.status.localName_new ""
    refine ⟨_, (reply.createIn.map base.absolute).map fun href =>
        (placeElement href).retag (Tag.inSpace Space.dav),
      reply.comment.map fun text =>
        ((Element.new "d:comment").text text).retag (Tag.inSpace Space.dav), ?_, hanswer, ?_, ?_⟩
    · rw [Element.elements_retag, elements_document, details, List.map_cons, List.map_append,
        ← Option.toList_map, ← Option.toList_map, Option.map_map, Option.map_map]
      rfl
    · cases reply.createIn with
      | none => exact .none
      | some href => exact .some (showsPlace_retag (base.absolute href))
    · cases reply.comment with
      | none => exact .none
      | some text =>
        exact .some (showsText_retag (by decide : (Element.new "d:comment").localName = _) text)

end Document

theorem parse_document
    (reply : InviteReply) :
    Xml.parse (Utf8.encode reply.document.document) =
      .ok (reply.document.retag (Tag.inSpace Space.dav)) :=
  parse_davRoot reply.alike_document reply.tag_document reply.isPlainBelow_document

/-- An answer to an invitation is what was given.  It is sent in one request, the same in
every session, whose body says the status, the place with the root in front and the comment,
whatever these strings are.  Whoever reads it as a notification finds the invitation accepted
or declined as it was, and a place gets the root in front once, also when it is there
already. -/
theorem answer_is_what_was_given
    {address href : String}
    {a : Account}
    {uri : Uri}
    (hbase : Uri.read address = .ok a.base)
    (hhref : a.base.resolve href = .ok uri)
    (reply : InviteReply) :
    ∃ (r : Request) (root : Element),
      Client.Posts a uri root (Client.answerInvitation a.base href reply) r ∧
      Says a.base reply root ∧
      (∀ place, (Notification.ofElement root place).status =
        some (if reply.accept then .accepted else .declined)) ∧
      ∀ x, Text.beginsWith "/" x = false →
        a.base.absolute x = a.base.root ++ x ∧
          a.base.absolute (a.base.root ++ x) = a.base.root ++ x := by
  have hpath := Uri.isPath_of_read hbase
  exact ⟨_, _, Client.posts_post hhref (reply.rooted a.base).parse_document,
    reply.says_document a.base, (reply.rooted a.base).status_ofElement,
    fun _ hslash => Uri.absolute_of_noSlash hpath hslash⟩

/-- A refusal with an acceptance in its comment and markup in its place. -/
theorem answer_is_what_was_given_thorny :
    let a : Account := { base := ⟨"https", "dav.example", ⟨"/dav", none⟩⟩ }
    let reply : InviteReply := {
      accept := false
      createIn := some "/dav/<d:invite-accepted/>"
      comment := some "</d:comment><d:invite-accepted/>" }
    ∃ (r : Request) (root : Element),
      Client.Posts a { a.base with target := ⟨"/dav/notes/1.xml", none⟩ } root
        (Client.answerInvitation a.base "notes/1.xml" reply) r ∧
      Says a.base reply root ∧
      (Notification.ofElement root "notes/1.xml").status = some .declined ∧
      a.base.absolute "/dav/<d:invite-accepted/>" = "/dav/<d:invite-accepted/>" := by
  intro a reply
  have hbase : Uri.read "https://dav.example/dav" = .ok a.base := by rfl
  have hhref : a.base.resolve "notes/1.xml" =
      .ok { a.base with target := ⟨"/dav/notes/1.xml", none⟩ } :=
    eq_ok_of_toOption (by decide +kernel)
  obtain ⟨r, root, hposts, hsays, hstatus, honce⟩ := answer_is_what_was_given hbase hhref reply
  have hroot : a.base.root = "/dav/" := by decide
  have hplace := (honce "<d:invite-accepted/>" (by decide)).2
  rw [hroot] at hplace
  exact ⟨r, root, hposts, hsays, hstatus "notes/1.xml", hplace⟩

end InviteReply
end PimDav
