import Mathlib.Data.List.Forall2
import PimDav.Proofs.Attempts
import PimDav.Proofs.Client.Items
import PimDav.Proofs.Client.Storing
import PimDav.Proofs.Text.Pieces
import PimDav.Proofs.Xml.Spelled

/-!
# Tags of what was stored and tags of what is listed

An item gets its entity tag from two places: from a header when it is stored, and from a
document when it is listed.  In the document the tag may be escaped, cut into pieces and
surrounded by blanks.  Whoever keeps the tag of what was stored, and finds it again in a
later listing, must not see a change where there is none.
-/

namespace PimDav

open Http (Answer Call Headers Received Reply)
open Xml (Element Piece Spelled Tag)

/-- Entity tags as headers can have them: printable ASCII, with something that shows at
either end. -/
structure IsEntityTag (v : String) : Prop where
  nonempty : v ≠ ""
  printable : ∀ c ∈ v.toList, 0x20 ≤ c.toNat ∧ c.toNat ≤ 0x7E
  first : v.toList.head? ≠ some ' '
  last : v.toList.getLast? ≠ some ' '

namespace IsEntityTag

variable {v : String}

theorem isReadable
    (hv : IsEntityTag v) :
    ∀ c ∈ v.toList, Text.isReadable c = true := by
  intro c hc
  have hprintable := hv.printable c hc
  simp [Text.isReadable, hprintable]

theorem isBlank_eq_false
    (hv : IsEntityTag v)
    {c : Char}
    (hc : c ∈ v.toList)
    (hshown : c ≠ ' ') :
    Text.isBlank c = false := by
  obtain ⟨hlow, hhigh⟩ := hv.printable c hc
  have hspace : c.toNat ≠ 0x20 := by
    intro hnat
    exact hshown ((Char.ofNat_toNat c).symm.trans (congrArg Char.ofNat hnat))
  simp only [Text.isBlank, Bool.or_eq_false_iff, Bool.and_eq_false_iff, decide_eq_false_iff_not,
    beq_eq_false_iff_ne]
  omega

/-- Blanks around a tag are all that trimming takes away. -/
theorem trimmed?_between
    (hv : IsEntityTag v)
    {before after : String}
    (hbefore : ∀ c ∈ before.toList, Text.isBlank c = true)
    (hafter : ∀ c ∈ after.toList, Text.isBlank c = true) :
    Text.trimmed? (before ++ v ++ after) = some v := by
  rw [Text.trimmed?_eq_some_iff]
  refine ⟨?_, hv.nonempty⟩
  rw [Text.trim_between hbefore hafter, Text.trim, Text.trimWhere_eq_self, String.ofList_toList]
  · intro c hc
    apply hv.isBlank_eq_false (List.mem_of_mem_head? hc)
    rintro rfl
    exact hv.first hc
  · intro c hc
    apply hv.isBlank_eq_false (List.mem_of_mem_getLast? hc)
    rintro rfl
    exact hv.last hc

end IsEntityTag

/-- A tag that is not between quotes stays as it is. -/
theorem Http.Headers.unquoteTag_eq_self
    {v : String}
    (hv : ∀ t, v ≠ "\"" ++ t ++ "\"") :
    unquoteTag v = v := by
  unfold unquoteTag
  split
  case h_1 rest hrest =>
    split
    case h_1 inner hinner =>
      have hquoted : v = "\"" ++ String.ofList inner.reverse ++ "\"" := by
        have hback : rest = inner.reverse ++ ['\x22'] := by
          rw [← List.reverse_reverse rest, hinner, List.reverse_cons]
        rw [← String.toList_inj, hrest, hback]
        simp
      exact absurd hquoted (hv _)
    case h_2 => rfl
  case h_2 => rfl

namespace Exchange

/-- The body of an answer as it is handed out. -/
def bodyOf (answer : Answer) : Except Fault Received :=
  match answer.body.decode? answer.headers.codings with
  | some bytes => receive bytes
  | none => .error (.body none)

/-- Success leads to a receipt, unless the body cannot be handed out. -/
theorem outcome_of_isSuccess
    {a : Account}
    {c : Call}
    {uri : Uri}
    {answer : Answer}
    (hresolve : a.base.resolve c.href = .ok uri)
    (hcode : Http.isSuccess answer.code = true) :
    outcome a c (.answer answer) =
      (bodyOf answer).map fun body =>
        ⟨answer.code, answer.headers.decoded answer.headers.codings, body⟩ := by
  cases hbody : answer.body.decode? answer.headers.codings with
  | none =>
    have hdecode : decode a.timeout (.answer answer) = .error (.body none) := by
      simp [decode, hbody]
    rw [outcome, hresolve, hdecode, bodyOf, hbody]
    rfl
  | some bytes =>
    rw [outcome_answer hresolve hcode hbody, bodyOf, hbody]

end Exchange

namespace Client

/-- What is stored with success comes back with the tag of the answer. -/
theorem run_store_of_entityTag
    {a : Account}
    {s : Session}
    {item : Item}
    {uri : Uri}
    {answer : Answer}
    {later : List Reply}
    {tag : String}
    (hpayload : item.payload.getD "" ≠ "")
    (hresolve : a.base.resolve item.href = .ok uri)
    (hreachable : s.server.reachable = true)
    (hreplies : s.server.replies = .answer answer :: later)
    (hcode : Http.isSuccess answer.code = true)
    (htag : answer.headers.entityTag? = some tag) :
    ((store item).run a s).1 =
      (Exchange.bodyOf answer).map fun _ => { item with tag := some tag } := by
  have hdone : (Exchange.perform a (put item) s).1 =
      (Exchange.bodyOf answer).map fun body =>
        ⟨answer.code, answer.headers.decoded answer.headers.codings, body⟩ := by
    rw [Exchange.perform_fst, Server.next_of_replies hreachable hreplies]
    exact Exchange.outcome_of_isSuccess hresolve hcode
  rw [run_store hpayload]
  cases hperform : Exchange.perform a (put item) s with
  | mk outcome after =>
    rw [hperform] at hdone
    dsimp only at hdone ⊢
    rw [hdone]
    cases Exchange.bodyOf answer with
    | error f => rfl
    | ok body =>
      dsimp only [Except.map]
      rw [Headers.entityTag?_decoded, htag]
      rfl

/-- Whether a body with a declaration is read as an element, whatever is found out about the
namespaces of its names. -/
def IsReadAs
    (body : Bytes)
    (root : Element) : Prop :=
  Xml.isDeclared body = true ∧
    ∃ read, Xml.parse body = .ok read ∧ read.withoutSpaces = root.withoutSpaces

/-- A report that is answered with success hands out the items of the element in the body. -/
theorem run_report_of_isReadAs
    {a : Account}
    {s : Session}
    {folder : String}
    {uri : Uri}
    {body : Bytes}
    {root : Element}
    (hfolder : a.base.resolve folder = .ok uri)
    (hbrings : Exchange.Brings s body)
    (hread : IsReadAs body root)
    (k : Kind)
    (complaint : Fault → PimDav.Entry)
    (question : Element) :
    (((Plan.callNoting complaint (.report folder .one question)).andThen fun receipt =>
        .done (itemsOf a.base k receipt.responses)).run a s).1 =
      .ok (itemsOf a.base k (root.descendants "response")) := by
  obtain ⟨hdeclared, read, hparse, hsame⟩ := hread
  have hreceived : Exchange.receive body = .ok (.document read) := by
    rw [Exchange.receive, hdeclared, if_pos rfl, hparse]
  have hitems : itemsOf a.base k (read.descendants "response") =
      itemsOf a.base k (root.descendants "response") := by
    rw [← itemsOf_withoutSpaces, ← Element.descendants_withoutSpaces, hsame,
      Element.descendants_withoutSpaces, itemsOf_withoutSpaces]
  rw [run_report_of_brings hfolder hbrings hreceived, hitems]

/-- Whether an item has a tag, if the response that it comes from has a text for it between
blanks. -/
def HasTagOf
    (v tag : String)
    (response : Element)
    (item : Item) : Prop :=
  ∀ property before after,
    Response.property? response "getetag" = some property →
      (∀ c ∈ before.toList, Text.isBlank c = true) → (∀ c ∈ after.toList, Text.isBlank c = true) →
        property.textContent = before ++ v ++ after → item.tag = some tag

/-- The responses that count are told of one by one, each by an item with its tag. -/
theorem forall₂_itemsOf
    {v : String}
    (hv : IsEntityTag v)
    (base : Uri)
    (k : Kind)
    (responses : List Element) :
    List.Forall₂ (HasTagOf v (Headers.unquoteTag v)) (responses.filter Response.isOk)
      (itemsOf base k responses) := by
  rw [itemsOf, List.forall₂_map_right_iff, List.forall₂_same]
  intro response _ property before after hproperty hbefore hafter htext
  have htag : Response.propertyText? response "getetag" = some v := by
    rw [Response.propertyText?, hproperty, Option.bind_some, Element.trimmedText?, htext,
      hv.trimmed?_between hbefore hafter]
  simp [Item.ofResponse, htag]

/-- A tag is kept in one form, wherever it comes from: without the quotes around it if there is
one at either end, and else as it is.  What is stored with success gets the tag of the
answer in this form.  So does every item of an answer to a search or a fetch when its
response has the tag between blanks as the text of the property; and what this text is
does not depend on how it was written.  A document may have all its text in pieces, escaped
or not, with comments between them: it is read as the element that it means. -/
theorem same_tag_stored_and_listed
    {v : String}
    (hv : IsEntityTag v) :
    ∃ tag : String,
      (∀ t, v = "\"" ++ t ++ "\"" → tag = t) ∧
      ((∀ t, v ≠ "\"" ++ t ++ "\"") → tag = v) ∧
      (∀ (a : Account) (s : Session) (item : Item) (uri : Uri) (answer : Answer)
        (later : List Reply),
        item.payload.getD "" ≠ "" → a.base.resolve item.href = .ok uri →
        s.server.reachable = true → s.server.replies = .answer answer :: later →
        Http.isSuccess answer.code = true →
        (answer.headers.all "etag").head? = some (.ofText "etag" v) →
          ((store item).run a s).1 =
            (Exchange.bodyOf answer).map fun _ => { item with tag := some tag }) ∧
      (∀ (a : Account) (s : Session) (folder : String) (uri : Uri) (body : Bytes)
        (root : Element),
        a.base.resolve folder = .ok uri → Exchange.Brings s body → IsReadAs body root →
          let told := List.Forall₂ (HasTagOf v tag)
            ((root.descendants "response").filter Response.isOk)
          (∀ k component, ∃ items,
            ((search a.base folder k component).run a s).1 = .ok items ∧ told items) ∧
          ∀ address k hrefs, Uri.read address = .ok a.base →
            (∃ h ∈ hrefs, (Text.trimmed? h).isSome = true) → ∃ items,
              ((fetch a.base folder k hrefs).run a s).1 = .ok items ∧ told items) ∧
      (∀ (start : Bytes) (outer : Tag) (inside : Spelled),
        Xml.isProlog start = true → outer.isWellFormed = true → inside.isWellFormed = true →
        Xml.isDeclared (start ++ Spelled.document outer inside) = true →
          IsReadAs (start ++ Spelled.document outer inside) ⟨outer, inside.meaning⟩) ∧
      ∀ (outer : Tag) (inside : Spelled),
        Element.textContent ⟨outer, inside.meaning⟩ = inside.said := by
  refine ⟨Headers.unquoteTag v, ?_, Headers.unquoteTag_eq_self, ?_, ?_, ?_,
    Spelled.textContent_meaning⟩
  · rintro t rfl
    exact Spelling.unquoteTag_quoted t
  · intro a s item uri answer later hpayload hresolve hreachable hreplies hcode hetag
    apply run_store_of_entityTag hpayload hresolve hreachable hreplies hcode
    rw [Headers.entityTag?, hetag, Option.bind_some, Http.Field.text?_ofText hv.isReadable]
    rfl
  · intro a s folder uri body root hfolder hbrings hread told
    have hrun := run_report_of_isReadAs hfolder hbrings hread
    constructor
    · intro k component
      exact ⟨_, hrun k _ _, forall₂_itemsOf hv a.base k _⟩
    · intro address k hrefs hbase hsome
      obtain ⟨document, hdocument⟩ :=
        multiget?_eq_some (k := k) (Uri.isPath_of_read hbase) hsome
      rw [fetch, hdocument]
      exact ⟨_, hrun k _ _, forall₂_itemsOf hv a.base k _⟩
  · intro start outer inside hstart houter hinside hdeclared
    refine ⟨hdeclared, Element.placed ⟨outer, inside.meaning⟩, ?_, ?_⟩
    · rw [Xml.parse_append_of_isProlog hstart, Xml.parse_spelled houter hinside]
    · rw [Element.withoutSpaces_placed]

/-- A tag with quotes and an ampersand, which is listed in pieces of all kinds with a comment
between them. -/
theorem same_tag_stored_and_listed_thorny :
    let a : Account := { base := ⟨"https", "dav.example", ⟨"/dav/", none⟩⟩ }
    let stored : Session :=
      { server := { replies := [.answer
          { code := 201, headers := ⟨[.ofText "etag" "\"a&\"b\""]⟩ }] } }
    let start := Utf8.encode "<?xml?>\n"
    let body := Utf8.encode ("<m><response><propstat><prop><getetag> &#34;a<!-- -->" ++
      "&amp;<![CDATA[\"b]]>&quot;\n</getetag></prop></propstat></response></m>")
    let listed : Session :=
      { server := { replies := [.answer { body := .plain (start ++ body) }] } }
    ((store (.new .event "cal/a.ics" "BEGIN:VCALENDAR")).run a stored).1.map Item.tag =
        .ok (some "a&\"b") ∧
      ((search a.base "cal/" .event none).run a listed).1.map (·.map Item.tag) =
        .ok [some "a&\"b"] := by
  intro a stored start body listed
  have hprintable : "\"a&\"b\"".toList.all (fun c => 0x20 ≤ c.toNat ∧ c.toNat ≤ 0x7E) = true := by
    decide +kernel
  have hv : IsEntityTag "\"a&\"b\"" :=
    ⟨by decide +kernel, fun c hc => of_decide_eq_true (List.all_eq_true.1 hprintable c hc),
      by decide +kernel, by decide +kernel⟩
  obtain ⟨tag, hquoted, -, hstore, hlist, hspelled, -⟩ := same_tag_stored_and_listed hv
  obtain rfl : tag = "a&\"b" := hquoted "a&\"b" (by decide +kernel)
  constructor
  · have hresolve : a.base.resolve "cal/a.ics" =
        .ok ⟨"https", "dav.example", ⟨"/dav/cal/a.ics", none⟩⟩ :=
      eq_ok_of_toOption (by decide +kernel)
    have hdone := hstore a stored (.new .event "cal/a.ics" "BEGIN:VCALENDAR") _ _ []
      (by decide +kernel) hresolve rfl rfl rfl (by decide +kernel)
    rw [hdone]
    rfl
  · have hfolder : a.base.resolve "cal/" =
        .ok ⟨"https", "dav.example", ⟨"/dav/cal/", none⟩⟩ :=
      eq_ok_of_toOption (by decide +kernel)
    let wrap (name : String) (sp : Spelled) : Spelled := .element [] { name } sp (.last [])
    let getetag : Spelled :=
      .aside
        [.run [' '] (by decide), .reference "#34".toList ['\x22']
            (.decimal (by decide +kernel) (by decide +kernel)), .run ['a'] (by decide)]
        (Utf8.encode "!-- -->") (by decide +kernel)
        (.last
          [.reference "amp".toList ['&'] (.known (by decide +kernel)),
            .cdata ['\x22', 'b'] (by decide),
            .reference "quot".toList ['\x22'] (.known (by decide +kernel)),
            .run ['\n'] (by decide)])
    let response := wrap "propstat" (wrap "prop" (wrap "getetag" getetag))
    have hread := hspelled start { name := "m" } (wrap "response" response) (by decide +kernel)
      (by decide +kernel) (by decide +kernel) (by decide +kernel)
    have hbody : start ++ Spelled.document { name := "m" } (wrap "response" response) =
        start ++ body := by
      decide +kernel
    rw [hbody] at hread
    have hbrings : Exchange.Brings listed (start ++ body) := ⟨_, [], rfl, rfl, rfl, rfl⟩
    obtain ⟨items, hitems, htold⟩ :=
      (hlist a listed "cal/" _ _ _ hfolder hbrings hread).1 .event none
    have hresponses :
        ((Element.mk { name := "m" } (wrap "response" response).meaning).descendants
          "response").filter Response.isOk = [⟨{ name := "response" }, response.meaning⟩] := by
      decide +kernel
    rw [hresponses] at htold
    obtain ⟨item, others, hitem, hnone, rfl⟩ := List.forall₂_cons_left_iff.1 htold
    obtain rfl := List.forall₂_nil_left_iff.1 hnone
    have htag : item.tag = some "a&\"b" :=
      hitem ⟨{ name := "getetag" }, getetag.meaning⟩ " " "\n" (by decide +kernel)
        (List.all_eq_true.1 (by decide +kernel)) (List.all_eq_true.1 (by decide +kernel))
        (by decide +kernel)
    rw [hitems, Except.map, List.map_singleton, htag]

end Client
end PimDav
