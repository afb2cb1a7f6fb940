import PimDav.Item
import PimDav.Proofs.Text.Words
import PimDav.Proofs.Xml.Search
import PimDav.Proofs.Xml.WellFormed

/-!
# What a server writes into a multistatus answer

A server lists items with their entity tags and payloads, and tells of hrefs
under which there is no item.  However it spells the names and ends its status
lines, what it wrote about an item is what is read.
-/

namespace PimDav

open Xml (Built Element)

/-- What a server tells of one href, which is given relative to the root. -/
inductive Reported where
  | item (href tag payload : String)
  | missing (href : String)
  deriving DecidableEq, Repr

namespace Reported

def href : Reported → String
  | item href _ _ => href
  | missing href => href

/-- The item that is told of, if there is one. -/
def item? (k : Kind) : Reported → Option Item
  | item href tag payload => some { kind := k, href, tag := some tag, payload := some payload }
  | missing _ => none

end Reported

/-- The free choices of a server: the prefixes of its names, the attributes of the
root, and the reasons at the ends of its status lines. -/
structure Spelling where
  dav : Option String := some "d"
  own : Option String := some "c"
  attributes : List (String × String) := []
  ok : Option String := some "OK"
  notFound : Option String := some "Not Found"
  deriving DecidableEq, Repr

namespace Spelling

/-- An element whose name may have a prefix. -/
def named
    (start : Option String)
    (name : String) : Element :=
  match start with
  | some start => .new (start ++ ":" ++ name)
  | none => .new name

/-- A status line; the reason may be left out. -/
def statusLine
    (code : String)
    (reason : Option String) : String :=
  match reason with
  | some reason => "HTTP/1.1 " ++ code ++ " " ++ reason
  | none => "HTTP/1.1 " ++ code

variable (sp : Spelling) (k : Kind)

def hrefOf (href : String) : Element :=
  (named sp.dav "href").text href

def status
    (code : String)
    (reason : Option String) : Element :=
  (named sp.dav "status").text (statusLine code reason)

/-- The properties of an item. -/
def properties (tag payload : String) : Element :=
  named sp.dav "prop"
    |>.child ((named sp.dav "getetag").text ("\"" ++ tag ++ "\""))
    |>.child ((named sp.own k.vocabulary.payload).text payload)

/-- The response that tells of an href behind the root. -/
def response (root : String) : Reported → Element
  | .item href tag payload =>
    named sp.dav "response"
      |>.child (sp.hrefOf (root ++ href))
      |>.child ((named sp.dav "propstat").child (sp.properties k tag payload)
        |>.child (sp.status "200" sp.ok))
  | .missing href =>
    named sp.dav "response"
      |>.child (sp.hrefOf (root ++ href))
      |>.child (sp.status "404" sp.notFound)

/-- The answer that holds some responses. -/
def answer (responses : List Element) : Element :=
  (sp.attributes.foldl (fun e a => e.attr a.1 a.2) (named sp.dav "multistatus")).children
    responses

/-- The answer with one response for each thing that is told. -/
def multistatus
    (root : String)
    (reports : List Reported) : Element :=
  (sp.attributes.foldl (fun e a => e.attr a.1 a.2) (named sp.dav "multistatus")).children
    (reports.map (sp.response k root))

/-- Whether all names are well-formed and the attributes of the root acceptable. -/
def isSound : Bool :=
  (sp.multistatus k "" []).isWellFormed &&
    (named sp.own k.vocabulary.payload).isWellFormed &&
    ["response", "href", "propstat", "prop", "getetag", "status"].all fun name =>
      (named sp.dav name).isWellFormed

/-! Every such answer is built of well-formed elements. -/

theorem built_named
    (start : Option String)
    (name : String) :
    Built (named start name) := by
  cases start with
  | some start => exact .new _
  | none => exact .new _

theorem built_response
    (root : String)
    (r : Reported) :
    Built (sp.response k root r) := by
  have htext : ∀ start name s, Built ((named start name).text s) := by
    intro start name s
    exact (built_named start name).text s
  cases r with
  | item href tag payload =>
    have hproperties : Built (sp.properties k tag payload) :=
      ((built_named _ _).child (htext _ _ _)).child (htext _ _ _)
    exact ((built_named _ _).child (htext _ _ _)).child
      (((built_named _ _).child hproperties).child (htext _ _ _))
  | missing href =>
    exact ((built_named _ _).child (htext _ _ _)).child (htext _ _ _)

theorem built_answer
    {responses : List Element}
    (hbuilt : ∀ r ∈ responses, Built r) :
    Built (sp.answer responses) := by
  have hroot : ∀ (attributes : List (String × String)) (e : Element), Built e →
      Built (attributes.foldl (fun e a => e.attr a.1 a.2) e) := by
    intro attributes
    induction attributes with
    | nil =>
      intro e he
      exact he
    | cons a attributes ih =>
      intro e he
      exact ih _ (he.attr a.1 a.2)
  exact Built.children (hroot _ _ (built_named _ _)) hbuilt

theorem isWellFormed_answer
    (responses : List Element) :
    (sp.answer responses).isWellFormed =
      ((sp.answer []).isWellFormed && responses.all (·.isWellFormed)) :=
  Element.isWellFormed_children _ _

theorem multistatus_eq
    (root : String)
    (reports : List Reported) :
    sp.multistatus k root reports = sp.answer (reports.map (sp.response k root)) := by
  rfl

theorem built_multistatus
    (root : String)
    (reports : List Reported) :
    Built (sp.multistatus k root reports) := by
  rw [multistatus_eq]
  apply built_answer
  intro d hd
  obtain ⟨r, -, rfl⟩ := List.mem_map.1 hd
  exact built_response sp k root r

variable {sp : Spelling} {k : Kind}

theorem isWellFormed_multistatus
    (hsound : sp.isSound k = true)
    (root : String)
    (reports : List Reported) :
    (sp.multistatus k root reports).isWellFormed = true := by
  simp only [isSound, multistatus, List.map_nil, Element.isWellFormed_children, List.all_nil,
    Bool.and_true, List.all_cons, Bool.and_eq_true] at hsound
  obtain ⟨⟨hroot, hpayload⟩, hresponse, hhref, hpropstat, hprop, htag, hstatus⟩ := hsound
  rw [multistatus, Element.isWellFormed_children, hroot, Bool.true_and, List.all_eq_true]
  intro d hd
  obtain ⟨r, -, rfl⟩ := List.mem_map.1 hd
  cases r with
  | item href tag payload =>
    simp [response, hrefOf, properties, status, *]
  | missing href =>
    simp [response, hrefOf, status, *]

/-! What is read of such an answer. -/

/-- A prefix does not change what an element is. -/
theorem localName_named
    {name : String}
    (hname : ':' ∉ name.toList)
    (start : Option String) :
    (named start name).localName = name := by
  cases start with
  | some start => exact Xml.localPart_append_colon hname start
  | none => exact Xml.localPart_of_not_mem hname

theorem is_named
    {name : String}
    (hname : ':' ∉ name.toList)
    (start : Option String)
    (wanted : String) :
    (named start name).is wanted = Text.caseless name wanted :=
  congrArg (Text.caseless · wanted) (localName_named hname start)

@[simp] theorem elements_named
    (start : Option String)
    (name : String) :
    (named start name).elements = [] := by
  cases start <;> rfl

theorem textContent_named_text
    (start : Option String)
    (name s : String) :
    ((named start name).text s).textContent = s := by
  cases start <;> exact Element.textContent_new_text _ s

/-- The code of a status line is its second word, whatever the reason. -/
theorem statusCode?_statusLine
    {code : String}
    (hcode : Text.words ("HTTP/1.1 " ++ code) = ["HTTP/1.1", code])
    (reason : Option String) :
    Response.statusCode? (Text.trim (statusLine code reason)) =
      Response.statusCode? ("HTTP/1.1 " ++ code) := by
  have hword : (Text.words (statusLine code reason))[1]? = some code := by
    cases reason with
    | none => rw [statusLine, hcode]; rfl
    | some reason => rw [statusLine, Text.words_append_blank, hcode]; rfl
  rw [Response.statusCode?, Response.statusCode?, Text.words_trim, hword, hcode]
  rfl

/-- The code alone decides what a status reports. -/
theorem reportsSuccess_status
    {code : String}
    {n : Nat}
    (hwords : Text.words ("HTTP/1.1 " ++ code) = ["HTTP/1.1", code])
    (hcode : Response.statusCode? ("HTTP/1.1 " ++ code) = some n)
    (reason : Option String) :
    Response.reportsSuccess (some (sp.status code reason)) = (200 ≤ n && n < 300) := by
  have htext : (sp.status code reason).textContent = statusLine code reason :=
    textContent_named_text _ _ _
  rw [Response.reportsSuccess, htext, statusCode?_statusLine hwords, hcode]

/-! Every element is known by its own name alone. -/

theorem is_hrefOf
    (href wanted : String) :
    (sp.hrefOf href).is wanted = Text.caseless "href" wanted := by
  rw [hrefOf, Element.is_text, is_named (by decide)]

theorem is_status
    (code : String)
    (reason : Option String)
    (wanted : String) :
    (sp.status code reason).is wanted = Text.caseless "status" wanted := by
  rw [status, Element.is_text, is_named (by decide)]

theorem is_properties
    (tag payload wanted : String) :
    (sp.properties k tag payload).is wanted = Text.caseless "prop" wanted := by
  rw [properties, Element.is_child, Element.is_child, is_named (by decide)]

theorem is_group
    (wanted : String) :
    (named sp.dav "propstat").is wanted = Text.caseless "propstat" wanted := by
  rw [is_named (by decide)]

theorem is_payload
    (k : Kind)
    (start : Option String)
    (wanted : String) :
    (named start k.vocabulary.payload).is wanted =
      Text.caseless k.vocabulary.payload wanted := by
  have hcolon : ':' ∉ k.vocabulary.payload.toList := by cases k <;> decide
  rw [is_named hcolon]

theorem is_response
    (root : String)
    (r : Reported)
    (wanted : String) :
    (sp.response k root r).is wanted = Text.caseless "response" wanted := by
  cases r with
  | item href tag payload =>
    rw [response, Element.is_child, Element.is_child, is_named (by decide)]
  | missing href =>
    rw [response, Element.is_child, Element.is_child, is_named (by decide)]

theorem find?_href
    (root : String)
    (r : Reported) :
    (sp.response k root r).find? "href" = some (sp.hrefOf (root ++ r.href)) := by
  cases r with
  | item href tag payload => simp [response, Element.find?, is_hrefOf, Reported.href]
  | missing href => simp [response, Element.find?, is_hrefOf, Reported.href]

/-- Only a response that reports success holds an item. -/
theorem isOk_response
    (root : String)
    (r : Reported) :
    Response.isOk (sp.response k root r) = (r.item? k).isSome := by
  have hhref : Text.caseless "href" "status" = false := by decide
  have hgroup : Text.caseless "propstat" "status" = false := by decide
  cases r with
  | item href tag payload =>
    have hnone : (sp.response k root (.item href tag payload)).find? "status" = none := by
      simp [response, Element.find?, is_hrefOf, is_group, hhref, hgroup]
    rw [Response.isOk, hnone]
    rfl
  | missing href =>
    have hsome : (sp.response k root (.missing href)).find? "status" =
        some (sp.status "404" sp.notFound) := by
      simp [response, Element.find?, is_hrefOf, is_status, hhref]
    rw [Response.isOk, hsome, reportsSuccess_status (n := 404) (by decide) (by decide)]
    rfl

/-- The properties of an item are the only ones that count. -/
theorem okProps_item
    (root href tag payload : String) :
    Response.okProps (sp.response k root (.item href tag payload)) =
      [sp.properties k tag payload] := by
  have hhref : Text.caseless "href" "propstat" = false := by decide
  have hprop : Text.caseless "prop" "status" = false := by decide
  have hstatus : Text.caseless "status" "prop" = false := by decide
  have hok : Response.reportsSuccess (some (sp.status "200" sp.ok)) = true :=
    reportsSuccess_status (n := 200) (by decide) (by decide) sp.ok
  simp [response, Response.okProps, Response.isOkGroup, Element.find?, is_hrefOf, is_group,
    is_properties, is_status, hhref, hprop, hstatus, hok]

theorem property?_getetag
    (root href tag payload : String) :
    Response.property? (sp.response k root (.item href tag payload)) "getetag" =
      some ((named sp.dav "getetag").text ("\"" ++ tag ++ "\"")) := by
  have htag : (named sp.dav "getetag").is "getetag" = true := by
    rw [is_named (by decide), Text.caseless_self]
  rw [Response.property?, okProps_item]
  simp [properties, Element.find?, htag]

theorem property?_payload
    (root href tag payload : String) :
    Response.property? (sp.response k root (.item href tag payload)) k.vocabulary.payload =
      some ((named sp.own k.vocabulary.payload).text payload) := by
  have htag : (named sp.dav "getetag").is k.vocabulary.payload = false := by
    rw [is_named (by decide)]
    cases k <;> decide
  rw [Response.property?, okProps_item]
  simp [properties, Element.find?, htag, is_payload]

/-- A tag between quotes has no blanks to trim. -/
theorem trimmed?_quoted
    (tag : String) :
    Text.trimmed? ("\"" ++ tag ++ "\"") = some ("\"" ++ tag ++ "\"") := by
  have hchars : ("\"" ++ tag ++ "\"").toList = '\x22' :: (tag.toList ++ ['\x22']) := by simp
  have hlast : Text.endsBlank ("\"" ++ tag ++ "\"") = false := by
    rw [Text.endsBlank, hchars, ← List.cons_append, List.getLast?_concat]
    decide
  exact Text.trimmed?_eq_some hchars (by decide) hlast

theorem unquoteTag_quoted
    (tag : String) :
    Http.Headers.unquoteTag ("\"" ++ tag ++ "\"") = tag := by
  have hchars : ("\"" ++ tag ++ "\"").toList = '\x22' :: (tag.toList ++ ['\x22']) := by simp
  simp [Http.Headers.unquoteTag, hchars]

/-- An item is read with the href, the tag and the payload that were written. -/
theorem ofResponse_item
    (sp : Spelling)
    (k : Kind)
    {root href : String}
    {cs : List Char}
    (hslash : (root ++ href).toList = '/' :: cs)
    (hend : Text.endsBlank (root ++ href) = false)
    (tag payload : String) :
    Item.ofResponse k (sp.response k root (.item href tag payload)) =
      { kind := k, href := root ++ href, tag := some tag, payload := some payload } := by
  have hhref : Response.href? (sp.response k root (.item href tag payload)) =
      some (root ++ href) := by
    rw [Response.href?, find?_href, Option.bind_some, Element.trimmedText?, hrefOf,
      textContent_named_text]
    exact Text.trimmed?_eq_some hslash (by decide) hend
  have htag : Response.propertyText? (sp.response k root (.item href tag payload)) "getetag" =
      some ("\"" ++ tag ++ "\"") := by
    rw [Response.propertyText?, property?_getetag, Option.bind_some, Element.trimmedText?,
      textContent_named_text, trimmed?_quoted]
  rw [Item.ofResponse, hhref, htag, property?_payload, Option.map_some, Option.map_some,
    unquoteTag_quoted, textContent_named_text]
  rfl

@[simp] theorem descendants_named
    (start : Option String)
    (name wanted : String) :
    (named start name).descendants wanted = [] := by
  cases start <;> rfl

/-- No response stands inside another one. -/
theorem descendants_response
    (root : String)
    (r : Reported) :
    (sp.response k root r).descendants "response" = [] := by
  have hinner : ∀ name ∈ ["href", "propstat", "prop", "getetag", "status"],
      (named sp.dav name).is "response" = false := by
    intro name hname
    simp only [List.mem_cons, List.not_mem_nil, or_false] at hname
    rcases hname with rfl | rfl | rfl | rfl | rfl <;>
      · rw [is_named (by decide)]
        decide
  have hpayload : Text.caseless k.vocabulary.payload "response" = false := by
    cases k <;> decide
  cases r with
  | item href tag payload =>
    simp [response, hrefOf, properties, status, Element.descendants_alone, hinner, is_payload,
      hpayload]
  | missing href =>
    simp [response, hrefOf, status, Element.descendants_alone, hinner]

/-- The responses of an answer stand in their order, and nothing else in the answer is
one. -/
theorem descendants_answer
    {responses : List Element}
    (hresponse : ∀ r ∈ responses, r.is "response" = true ∧ r.descendants "response" = []) :
    (sp.answer responses).descendants "response" = responses := by
  have hroot : (sp.attributes.foldl (fun e a => e.attr a.1 a.2)
      (named sp.dav "multistatus")).descendants "response" = [] := by
    rw [Element.descendants, Element.content_foldl_attr]
    exact descendants_named _ _ _
  rw [answer, Element.descendants_children, hroot, List.nil_append]
  induction responses with
  | nil => rfl
  | cons r responses ih =>
    obtain ⟨⟨hname, hnone⟩, hrest⟩ := List.forall_mem_cons.1 hresponse
    rw [List.flatMap_cons, ih hrest, Element.descendants_alone, hname, hnone]
    rfl

theorem descendants_multistatus
    (root : String)
    (reports : List Reported) :
    (sp.multistatus k root reports).descendants "response" =
      reports.map (sp.response k root) := by
  rw [multistatus_eq]
  apply descendants_answer
  intro d hd
  obtain ⟨r, -, rfl⟩ := List.mem_map.1 hd
  exact ⟨(is_response root r "response").trans (Text.caseless_self _), descendants_response root r⟩

end Spelling
end PimDav
