import PimDav.Proofs.Client.Posting

/-!
# What a share grants

A request that shares a folder says for each sharee who it is, what it may do and perhaps a
comment.  Read back, it says of exactly the sharees that were given exactly that, whatever
their strings are, and nothing else in it names an access.
-/

namespace PimDav

open Http (Request)
open Xml (Element IsPlainBelow IsPlainIn Tag)

namespace Access

/-- Whether an element has the name of an access. -/
def names (e : Element) : Bool :=
  every.any fun a => e.is a.elementName

theorem names_new
    (a : Access) :
    names (.new ("d:" ++ a.elementName)) = true := by
  cases a <;> decide

/-- What is inside an element does not count. -/
theorem names_of_tag
    {e other : Element}
    (htag : other.tag = e.tag) :
    names other = names e := by
  have his : ∀ wanted, other.is wanted = e.is wanted := fun wanted =>
    congrArg (Tag.is · wanted) htag
  rw [names, names]
  simp only [his]

theorem names_retag
    {f : Tag → Tag}
    (hf : Tag.KeepsNames f) :
    names ∘ Element.retag f = names := by
  funext e
  rw [Function.comp_apply, names, names]
  simp only [Element.is_retag hf]

/-- An access is written with its own name. -/
theorem localName_new
    (a : Access) :
    (Element.new ("d:" ++ a.elementName)).localName = a.elementName := by
  cases a <;> decide

end Access

namespace Sharee

/-- The element that says what a sharee may do. -/
def accessIn? (e : Element) : Option Element :=
  (e.find? "share-access").bind Element.onlyChild?

/-- The sharee that an element speaks of. -/
def ofElement? (e : Element) : Option Sharee := do
  let href ← e.find? "href"
  let access ← (accessIn? e).bind fun shown => Access.ofElementName? shown.localName
  return {
    href := href.textContent
    access
    comment := (e.find? "comment").map Element.textContent }

section Retag

variable {f : Tag → Tag} (hf : Tag.KeepsNames f)

include hf

theorem accessIn?_retag
    (e : Element) :
    accessIn? (e.retag f) = (accessIn? e).map (Element.retag f) := by
  rw [accessIn?, accessIn?, Element.find?_retag hf, Option.bind_map, Option.map_bind]
  exact congrArg (Option.bind _) (funext Element.onlyChild?_retag)

/-- A sharee is read by local names and texts alone. -/
theorem ofElement?_retag
    (e : Element) :
    ofElement? (e.retag f) = ofElement? e := by
  have haccess : (accessIn? (e.retag f)).bind (fun shown => Access.ofElementName? shown.localName) =
      (accessIn? e).bind fun shown => Access.ofElementName? shown.localName := by
    rw [accessIn?_retag hf, Option.bind_map]
    exact congrArg (Option.bind _)
      (funext fun shown => congrArg Access.ofElementName? (Element.localName_retag hf shown))
  have hcomment : ((e.retag f).find? "comment").map Element.textContent =
      (e.find? "comment").map Element.textContent := by
    rw [Element.find?_retag hf, Option.map_map]
    exact congrArg (Option.map · _) (funext Element.textContent_retag)
  rw [ofElement?, haccess, hcomment, Element.find?_retag hf, ofElement?]
  cases e.find? "href" with
  | none => rfl
  | some href =>
    rw [Option.map_some, Option.bind_eq_bind, Option.bind_some, Element.textContent_retag,
      Option.bind_eq_bind, Option.bind_some]

end Retag

/-! What is inside the element of a sharee. -/

def hrefElement (sharee : Sharee) : Element :=
  (Element.new "d:href").text sharee.href

def commentElements (sharee : Sharee) : List Element :=
  (sharee.comment.map (Element.new "d:comment").text).toList

def accessElement (sharee : Sharee) : Element :=
  .new ("d:" ++ sharee.access.elementName)

def grantElement (sharee : Sharee) : Element :=
  (Element.new "d:share-access").child sharee.accessElement

theorem elements_element
    (sharee : Sharee) :
    sharee.element.elements =
      sharee.hrefElement :: (sharee.commentElements ++ [sharee.grantElement]) := by
  rw [element, Element.elements_child, Element.elements_children, Element.elements_child,
    List.append_assoc]
  rfl

theorem deepElements_element
    (sharee : Sharee) :
    sharee.element.deepElements =
      sharee.hrefElement ::
        (sharee.commentElements ++ [sharee.grantElement, sharee.accessElement]) := by
  have hcomment : sharee.commentElements.flatMap (fun d => d :: d.deepElements) =
      sharee.commentElements := by
    rw [commentElements]
    cases sharee.comment <;> simp
  have hhref : sharee.hrefElement.deepElements = [] := Element.deepElements_text _ sharee.href
  rw [element, Element.deepElements_child, Element.deepElements_children,
    Element.deepElements_child, List.append_assoc]
  change [] ++ sharee.hrefElement :: sharee.hrefElement.deepElements ++
    (sharee.commentElements.flatMap _ ++ _) = _
  rw [hhref, hcomment]
  rfl

theorem tag_element
    (sharee : Sharee) :
    sharee.element.tag = (Element.new "d:sharee").tag :=
  Element.tag_children _ _

theorem tag_of_mem_commentElements
    {sharee : Sharee}
    {e : Element}
    (he : e ∈ sharee.commentElements) :
    e.tag = (Element.new "d:comment").tag := by
  obtain ⟨s, -, rfl⟩ := Option.map_eq_some_iff.1 (Option.mem_toList.1 he)
  rfl

/-! What is inside these elements does not count for their names. -/

theorem is_hrefElement
    (sharee : Sharee)
    (wanted : String) :
    sharee.hrefElement.is wanted = (Element.new "d:href").is wanted :=
  rfl

theorem is_grantElement
    (sharee : Sharee)
    (wanted : String) :
    sharee.grantElement.is wanted = (Element.new "d:share-access").is wanted :=
  rfl

theorem find?_commentElements
    (sharee : Sharee)
    (wanted : String) :
    sharee.commentElements.find? (·.is wanted) =
      if (Element.new "d:comment").is wanted then
        sharee.comment.map (Element.new "d:comment").text
      else none := by
  rw [commentElements]
  cases sharee.comment with
  | none => simp
  | some s => cases hname : (Element.new "d:comment").is wanted <;> simp [hname]

/-- What is found in the element of a sharee. -/
theorem find?_element
    (sharee : Sharee) :
    sharee.element.find? "href" = some sharee.hrefElement ∧
      sharee.element.find? "comment" = sharee.comment.map (Element.new "d:comment").text ∧
      sharee.element.find? "share-access" = some sharee.grantElement := by
  have hhref : (Element.new "d:href").is "href" = true ∧
      (Element.new "d:href").is "comment" = false ∧
      (Element.new "d:href").is "share-access" = false := by decide
  have hcomment : (Element.new "d:comment").is "comment" = true ∧
      (Element.new "d:comment").is "share-access" = false := by decide
  have haccess : (Element.new "d:share-access").is "comment" = false ∧
      (Element.new "d:share-access").is "share-access" = true := by decide
  simp [Element.find?, elements_element, List.find?_append, is_hrefElement, is_grantElement,
    find?_commentElements, hhref, hcomment, haccess]

theorem accessIn?_element
    (sharee : Sharee) :
    accessIn? sharee.element = some sharee.accessElement := by
  rw [accessIn?, sharee.find?_element.2.2, Option.bind_some, grantElement,
    Element.onlyChild?_new_child]

/-- A sharee is found again in its element. -/
theorem ofElement?_element
    (sharee : Sharee) :
    ofElement? sharee.element = some sharee := by
  obtain ⟨hhref, hcomment, -⟩ := sharee.find?_element
  have htext : sharee.hrefElement.textContent = sharee.href :=
    Element.textContent_new_text "d:href" sharee.href
  have hcomments : (sharee.comment.map (Element.new "d:comment").text).map Element.textContent =
      sharee.comment := by
    cases sharee.comment with
    | none => rfl
    | some s => exact congrArg some (Element.textContent_new_text "d:comment" s)
  have hname : sharee.accessElement.localName = sharee.access.elementName :=
    sharee.access.localName_new
  simp [ofElement?, hhref, accessIn?_element, hcomment, htext, hcomments, hname]

/-- The element of a sharee names one access. -/
theorem filter_names_element
    (sharee : Sharee) :
    (sharee.element :: sharee.element.deepElements).filter Access.names =
      [sharee.accessElement] := by
  -- Only the innermost element has the name of an access, whatever the strings are.
  have hothers : Access.names (.new "d:sharee") = false ∧ Access.names (.new "d:href") = false ∧
      Access.names (.new "d:comment") = false ∧
      Access.names (.new "d:share-access") = false := by decide
  obtain ⟨hsharee, hhref, hcomment, hshare⟩ := hothers
  have hroot : Access.names sharee.element = false :=
    (Access.names_of_tag sharee.tag_element).trans hsharee
  have hfirst : Access.names sharee.hrefElement = false :=
    (Access.names_of_tag rfl).trans hhref
  have hmiddle : sharee.commentElements.filter Access.names = [] := by
    rw [List.filter_eq_nil_iff]
    intro e he
    rw [Access.names_of_tag (tag_of_mem_commentElements he), hcomment]
    exact Bool.false_ne_true
  have houter : Access.names sharee.grantElement = false :=
    (Access.names_of_tag rfl).trans hshare
  have haccess : Access.names sharee.accessElement = true := sharee.access.names_new
  simp [deepElements_element, hroot, hfirst, hmiddle, houter, haccess]

/-- No sharee is inside another one. -/
theorem descendants_alone_element
    (sharee : Sharee) :
    sharee.element.alone.descendants "sharee" = [sharee.element] := by
  have hothers : (Element.new "d:href").is "sharee" = false ∧
      (Element.new "d:comment").is "sharee" = false ∧
      (Element.new "d:share-access").is "sharee" = false := by decide
  have haccess : sharee.accessElement.is "sharee" = false := by
    rw [accessElement]
    cases sharee.access <;> decide
  have hcomment : sharee.commentElements.filter (·.is "sharee") = [] := by
    rw [commentElements]
    cases sharee.comment <;> simp [hothers]
  have hinside : sharee.element.descendants "sharee" = [] := by
    rw [Element.descendants_eq_filter, deepElements_element]
    simp [is_hrefElement, is_grantElement, hothers, haccess, hcomment]
  have hroot : sharee.element.is "sharee" = true := by
    have hnew : (Element.new "d:sharee").is "sharee" = true := by decide
    exact (congrArg (Tag.is · "sharee") sharee.tag_element).trans hnew
  rw [Element.descendants_alone, hroot, if_pos rfl, hinside]

theorem isPlain_element
    (sharee : Sharee) :
    IsPlainIn "d" sharee.element ∧ IsPlainBelow "d" sharee.element := by
  have hhref : IsPlainIn "d" sharee.hrefElement := (Xml.isPlainIn_new "d" "href").of_tag rfl
  have hcomment : ∀ e ∈ sharee.commentElements, IsPlainIn "d" e := fun _ he =>
    (Xml.isPlainIn_new "d" "comment").of_tag (tag_of_mem_commentElements he)
  have hshare : IsPlainIn "d" sharee.grantElement :=
    (Xml.isPlainIn_new "d" "share-access").of_tag rfl
  have haccess : IsPlainIn "d" sharee.accessElement :=
    Xml.isPlainIn_new "d" sharee.access.elementName
  refine ⟨(Xml.isPlainIn_new "d" "sharee").of_tag sharee.tag_element, ?_⟩
  rw [IsPlainBelow, deepElements_element]
  refine List.forall_mem_cons.2 ⟨hhref, List.forall_mem_append.2 ⟨hcomment, ?_⟩⟩
  exact List.forall_mem_cons.2 ⟨hshare, List.forall_mem_singleton.2 haccess⟩

end Sharee

namespace Share

variable (share : Share)

theorem document_eq :
    share.document = (davRoot "share-resource").children (share.sharees.map Sharee.element) :=
  rfl

theorem tag_document :
    share.document.tag = (davRoot "share-resource").tag :=
  Element.tag_children _ _

theorem elements_document :
    share.document.elements = share.sharees.map Sharee.element := by
  rw [document_eq, Element.elements_children]
  rfl

/-- The sharees of a document are all its elements. -/
theorem descendants_document :
    share.document.descendants "sharee" = share.sharees.map Sharee.element := by
  rw [document_eq, Element.descendants_children, List.flatMap_map]
  simp only [Sharee.descendants_alone_element]
  exact List.map_eq_flatMap.symm

/-- A document names one access for each sharee. -/
theorem filter_names_document :
    (share.document :: share.document.deepElements).filter Access.names =
      share.sharees.map Sharee.accessElement := by
  have hroot : Access.names share.document = false :=
    (Access.names_of_tag share.tag_document).trans (by decide)
  have hbelow : share.document.deepElements =
      share.sharees.flatMap fun sharee => sharee.element :: sharee.element.deepElements := by
    rw [document_eq, Element.deepElements_children, List.flatMap_map]
    rfl
  rw [List.filter_cons_of_neg (by rw [hroot]; decide), hbelow, List.filter_flatMap]
  simp only [Sharee.filter_names_element]
  exact List.map_eq_flatMap.symm

theorem isPlainBelow_document :
    IsPlainBelow "d" share.document := by
  apply (IsPlainBelow.new "d:share-resource").attr _ _ |>.children
  intro d hd
  obtain ⟨sharee, -, rfl⟩ := List.mem_map.1 hd
  exact sharee.isPlain_element

/-- A share grants what was asked.  Its document is read as a list of sharees that says of
each of them, in their order, who it is, what it may do and what the comment is, whatever
these strings are; no other element in it names an access.  Sharing a folder posts that
document, and nothing else. -/
theorem grants_what_was_asked :
    ∃ root : Element,
      Xml.parse (Utf8.encode share.document.document) = .ok root ∧
      (∀ e ∈ root :: root.deepElements, e.tag.space = some Space.dav) ∧
      root.elements = root.descendants "sharee" ∧
      (root.descendants "sharee").map Sharee.ofElement? = share.sharees.map some ∧
      (root :: root.deepElements).filter Access.names =
        (root.descendants "sharee").filterMap Sharee.accessIn? ∧
      ∀ (a : Account) (uri : Uri), a.base.resolve share.href = .ok uri →
        ∃ r : Request, Client.Posts a uri root (Client.share share) r := by
  let root := share.document.retag (Tag.inSpace Space.dav)
  have hnames := Tag.keepsNames_inSpace Space.dav
  have hparse : Xml.parse (Utf8.encode share.document.document) = .ok root :=
    parse_davRoot share.alike_document share.tag_document share.isPlainBelow_document
  have hsharees : root.descendants "sharee" =
      share.sharees.map fun sharee => sharee.element.retag (Tag.inSpace Space.dav) := by
    rw [Element.descendants_retag hnames, descendants_document, List.map_map]
    rfl
  refine ⟨root, hparse, fun e he => Element.space_retag_inSpace he, ?_, ?_, ?_, ?_⟩
  · rw [Element.elements_retag, elements_document, hsharees, List.map_map]
    rfl
  · rw [hsharees, List.map_map]
    refine List.map_congr_left fun sharee _ => ?_
    rw [Function.comp_apply, Sharee.ofElement?_retag hnames, sharee.ofElement?_element]
  · have hasked : (root.descendants "sharee").filterMap Sharee.accessIn? =
        share.sharees.map fun sharee => sharee.accessElement.retag (Tag.inSpace Space.dav) := by
      rw [hsharees, List.filterMap_map, ← List.filterMap_eq_map]
      apply congrArg (share.sharees.filterMap ·)
      funext sharee
      rw [Function.comp_apply, Sharee.accessIn?_retag hnames, sharee.accessIn?_element]
      rfl
    rw [hasked, Element.deepElements_retag, ← List.map_cons, List.filter_map,
      Access.names_retag hnames, filter_names_document, List.map_map]
    rfl
  · intro a uri hhref
    exact ⟨_, Client.posts_post hhref hparse⟩

/-- Strings that look like accesses, a comment without text, and a sharee without a name. -/
theorem grants_what_was_asked_thorny :
    let a : Account := { base := ⟨"https", "dav.example", ⟨"/dav/", none⟩⟩ }
    let share : Share := {
      href := "cal/"
      sharees := [
        { href := "mailto:a&b", access := .read, comment := some "</d:comment><d:read-write/>" },
        { href := "<d:no-access/>", access := .readWrite, comment := some "" },
        { href := "", access := .noAccess }] }
    ∃ (root : Element) (r : Request),
      Client.Posts a { a.base with target := ⟨"/dav/cal/", none⟩ } root (Client.share share) r ∧
      (root.descendants "sharee").map Sharee.ofElement? = share.sharees.map some := by
  intro a share
  have hhref : a.base.resolve share.href = .ok { a.base with target := ⟨"/dav/cal/", none⟩ } :=
    eq_ok_of_toOption (by decide +kernel)
  obtain ⟨root, -, -, -, hread, -, hposts⟩ := grants_what_was_asked share
  obtain ⟨r, hr⟩ := hposts a _ hhref
  exact ⟨root, r, hr, hread⟩

end Share
end PimDav
