import PimDav.Proofs.Client.Drafts
import PimDav.Proofs.Client.LastHeaders
import PimDav.Proofs.Uri.Root
import PimDav.Proofs.Xml.Places

/-!
# What a fetch asks for

Items are fetched by their hrefs: blank ones are left out, the others are trimmed and get the
root in front of them.  The document that asks for them trims once more and leaves out what
is blank, which changes nothing any more.
-/

namespace PimDav

open Http (Call Field Request)
open Xml (Element)

namespace Report

open Xml (Binding)

/-- The element that names the properties that are asked for. -/
def properties (k : Kind) : Element :=
  Element.new "d:prop"
    |>.child (.new "d:getetag")
    |>.child (.new ("c:" ++ k.vocabulary.payload))

/-- The document that asks for items by their hrefs. -/
def asking
    (k : Kind)
    (wanted : List String) : Element :=
  ((root k k.vocabulary.multiget).child (properties k)).children
    (wanted.map (Element.new "d:href").text)

theorem multiget?_of_trimmed
    {wanted : List String}
    (htrimmed : wanted.filterMap Text.trimmed? = wanted)
    (k : Kind) :
    multiget? k wanted = if wanted = [] then none else some (asking k wanted) := by
  rw [multiget?, htrimmed]
  cases wanted with
  | nil => rfl
  | cons href wanted => rfl

/-- A document, as it is read, that asks for the entity tags and the payloads of exactly
these items. -/
structure Asks
    (k : Kind)
    (wanted : List String)
    (root : Element) : Prop where
  name : root.expandedName = (k.vocabulary.multiget, some k.vocabulary.space)
  elements : ∃ (prop : Element) (entries : List Element),
    root.elements = prop :: entries ∧
    prop.expandedName = ("prop", some Space.dav) ∧
    prop.elements.map (·.expandedName) =
      [("getetag", some Space.dav), (k.vocabulary.payload, some k.vocabulary.space)] ∧
    entries.map (fun e => (e.expandedName, e.elements, e.textContent)) =
      wanted.map fun href => (("href", some Space.dav), [], href)

/-- The bindings inside a root. -/
theorem spaceOf_root
    (k : Kind)
    (name : String) :
    let inForce := (root k name).tag.declared Binding.builtin
    Binding.spaceOf inForce "d" = some Space.dav ∧
      Binding.spaceOf inForce "c" = some k.vocabulary.space := by
  have hdeclared : (root k name).tag.declared Binding.builtin =
      (root k "").tag.declared Binding.builtin := rfl
  rw [hdeclared]
  cases k <;> decide +kernel

section Placed

variable {inForce : List Binding} (hdav : Binding.spaceOf inForce "d" = some Space.dav)

include hdav

theorem expandedName_properties
    (k : Kind) :
    ((properties k).placedIn inForce).expandedName = ("prop", some Space.dav) := by
  have hname : (properties k).tag.name = "d" ++ ":" ++ "prop" := rfl
  rw [← hdav]
  exact Element.expandedName_placedIn_of_attributes inForce rfl hname (by decide) (by decide)

theorem elements_properties
    {k : Kind}
    (hspace : Binding.spaceOf inForce "c" = some k.vocabulary.space) :
    ((properties k).placedIn inForce).elements.map (·.expandedName) =
      [("getetag", some Space.dav), (k.vocabulary.payload, some k.vocabulary.space)] := by
  have htag : (Element.new "d:getetag").tag.name = "d" ++ ":" ++ "getetag" := rfl
  have hpayload : (Element.new ("c:" ++ k.vocabulary.payload)).tag.name =
      "c" ++ ":" ++ k.vocabulary.payload := by
    cases k <;> rfl
  have hplain : ':' ∉ k.vocabulary.payload.toList := by cases k <;> decide
  have hinside : (properties k).elements =
      [Element.new "d:getetag", Element.new ("c:" ++ k.vocabulary.payload)] := rfl
  rw [Element.elements_placedIn_of_attributes inForce rfl, hinside, ← hdav, ← hspace]
  simp only [List.map_cons, List.map_nil]
  rw [Element.expandedName_placedIn_of_attributes inForce rfl htag (by decide) (by decide),
    Element.expandedName_placedIn_of_attributes inForce rfl hpayload (by decide) hplain]

theorem entry_placedIn
    (href : String) :
    let e := ((Element.new "d:href").text href).placedIn inForce
    (e.expandedName, e.elements, e.textContent) = (("href", some Space.dav), [], href) := by
  intro e
  have hname : ((Element.new "d:href").text href).tag.name = "d" ++ ":" ++ "href" := rfl
  have hexpanded : e.expandedName = ("href", some Space.dav) := by
    rw [← hdav]
    exact Element.expandedName_placedIn_of_attributes inForce rfl hname (by decide) (by decide)
  have hinside : e.elements = [] := by
    rw [Element.elements_placedIn_of_attributes inForce rfl, Element.elements, Element.text,
      Xml.Content.elements_addText]
    rfl
  rw [hexpanded, hinside, Element.textContent_placedIn, Element.textContent_new_text]

end Placed

/-- The document is read as it was meant. -/
theorem asks_placed
    (k : Kind)
    (wanted : List String) :
    Asks k wanted (asking k wanted).placed := by
  let inForce := (root k k.vocabulary.multiget).tag.declared Binding.builtin
  obtain ⟨hdav, hspace⟩ := spaceOf_root k k.vocabulary.multiget
  have htag : (asking k wanted).tag = (root k k.vocabulary.multiget).tag :=
    Element.tag_children _ _
  have helements : (asking k wanted).placed.elements =
      (properties k).placedIn inForce ::
        (wanted.map (Element.new "d:href").text).map (Element.placedIn inForce) := by
    rw [Element.elements_placed, htag, asking, Element.elements_children, Element.elements_child]
    rfl
  constructor
  · have hname : (asking k wanted).tag.name = "c" ++ ":" ++ k.vocabulary.multiget := by
      rw [htag]
      cases k <;> rfl
    have hplain : ':' ∉ k.vocabulary.multiget.toList := by cases k <;> decide
    have hplaced := Element.expandedName_placedIn Binding.builtin hname (by decide) hplain
    rwa [htag, hspace] at hplaced
  · refine ⟨_, _, helements, expandedName_properties hdav k, elements_properties hdav hspace, ?_⟩
    rw [List.map_map, List.map_map]
    exact List.map_congr_left fun href _ => entry_placedIn hdav href

/-- The bytes of the document are read as it was meant. -/
theorem parse_asking
    {wanted : List String}
    (k : Kind)
    (htrimmed : wanted.filterMap Text.trimmed? = wanted)
    (hwanted : wanted ≠ []) :
    ∃ document, Xml.parse (Utf8.encode (asking k wanted).document) = .ok document ∧
      Asks k wanted document := by
  have hasked : multiget? k wanted = some (asking k wanted) := by
    rw [multiget?_of_trimmed htrimmed, if_neg hwanted]
  rcases multiget?_cases k wanted with ⟨hnone, -⟩ | ⟨e, other, hsome, -, halike⟩
  · rw [hasked] at hnone
    cases hnone
  · obtain rfl := Option.some.inj (hasked.symm.trans hsome)
    exact ⟨_, Xml.parse_document halike.built.isJoined halike.isWellFormed, asks_placed k wanted⟩

end Report

theorem Plan.attempts_callNoting
    (complaint : Fault → Entry)
    (c : Call)
    (a : Account)
    (v : Server) :
    (callNoting complaint c).attempts a v = [Exchange.attempt a c v] := by
  rw [callNoting, attempts]
  split <;> rfl

/-- A report reaches as far as it says. -/
theorem Exchange.depth_report
    (a : Account)
    (folder : String)
    (d : Http.Depth)
    (document : Element)
    (uri : Uri) :
    (request a (.report folder d document) uri).headers.all "depth" =
      [Field.ofText "depth" d.text] := by
  rw [request, Http.Headers.all, List.filter_append]
  cases a.credentials <;> rfl

theorem Exchange.body_report
    (a : Account)
    (folder : String)
    (d : Http.Depth)
    (document : Element)
    (uri : Uri) :
    (request a (.report folder d document) uri).body = Utf8.encode document.document := by
  rfl

namespace Client

/-- A fetch makes one attempt, with its document. -/
theorem attempts_fetch
    {base : Uri}
    {k : Kind}
    {hrefs : List String}
    {document : Element}
    (hdocument : Report.multiget? k ((hrefs.filterMap Text.trimmed?).map base.absolute) =
      some document)
    (a : Account)
    (folder : String)
    (s : Session) :
    (fetch base folder k hrefs).attempts a s.server =
      [Exchange.attempt a (.report folder .one document) s.server] := by
  rw [fetch, hdocument]
  exact (Plan.attempts_andThen_done a _ _ s).trans (Plan.attempts_callNoting _ _ a s.server)

/-- Items are fetched with a single report that goes to the folder, and asks for exactly the
hrefs that are not blank, in their order, each trimmed and with the root in front.  When all
are blank, nothing happens. -/
theorem fetch_asks_for_hrefs
    {address folder : String}
    {a : Account}
    {uri : Uri}
    (k : Kind)
    (hrefs : List String)
    (hbase : Uri.read address = .ok a.base)
    (hfolder : a.base.resolve folder = .ok uri)
    (s : Session) :
    let wanted := ((hrefs.map Text.trim).filter fun href => !href.isEmpty).map a.base.absolute
    let p := fetch a.base folder k hrefs
    (wanted = [] → p.run a s = (.ok [], s)) ∧
    (wanted ≠ [] → ∃ (r : Request) (document : Element),
      ((p.attempts a s.server).flatMap fun t => Exchange.requests a t.call) = [r] ∧
      (s.server.reachable = true →
        (p.run a s).2.server.received = s.server.received ++ [r]) ∧
      r.method = "REPORT" ∧ r.uri = uri ∧
      r.headers.all "depth" = [Field.ofText "depth" "1"] ∧
      Xml.parse r.body = .ok document ∧ Report.Asks k wanted document) := by
  intro wanted p
  have hpath := Uri.isPath_of_read hbase
  have hkept : (hrefs.filterMap Text.trimmed?).map a.base.absolute = wanted :=
    congrArg (List.map a.base.absolute) (Text.filterMap_trimmed? hrefs)
  have htrimmed : wanted.filterMap Text.trimmed? = wanted := by
    rw [← hkept]
    exact Uri.filterMap_trimmed?_absolute hpath hrefs
  have hdocument := Report.multiget?_of_trimmed htrimmed k
  constructor
  · intro hnone
    have hp : p = .done [] := by
      show fetch a.base folder k hrefs = _
      rw [fetch, hkept, hdocument, if_pos hnone]
    rw [hp]
    rfl
  · intro hsome
    have hasked : Report.multiget? k ((hrefs.filterMap Text.trimmed?).map a.base.absolute) =
        some (Report.asking k wanted) := by
      rw [hkept, hdocument, if_neg hsome]
    obtain ⟨document, hparse, hasks⟩ := Report.parse_asking k htrimmed hsome
    generalize Report.asking k wanted = asked at hasked hparse
    have hone : Exchange.requests a (.report folder .one asked) =
        [Exchange.request a (.report folder .one asked) uri] := by
      rw [Exchange.requests]
      have hhref : (Call.report folder .one asked).href = folder := rfl
      rw [hhref, hfolder]
    have hrequests : ((p.attempts a s.server).flatMap fun t => Exchange.requests a t.call) =
        [Exchange.request a (.report folder .one asked) uri] := by
      rw [← hone]
      exact (congrArg (List.flatMap _) (attempts_fetch hasked a folder s)).trans
        (List.flatMap_singleton _ _)
    refine ⟨Exchange.request a (.report folder .one asked) uri, document, hrequests, ?_, rfl, rfl,
      Exchange.depth_report a folder .one asked uri, ?_, hasks⟩
    · intro hreachable
      rw [(Plan.leadTo_run a p s).server hreachable, hrequests]
    · rw [Exchange.body_report]
      exact hparse

/-- Markup in an href, one that is asked for twice, the root itself, and a blank one. -/
theorem fetch_asks_for_hrefs_thorny :
    let a : Account := { base := ⟨"https", "dav.example", ⟨"/dav", none⟩⟩ }
    let hrefs := [" cal/<a>&.ics\t", "", "/dav/cal/b.ics", "/dav", "cal/<a>&.ics"]
    let s : Session := { server := { replies := [.stalled] } }
    (∃ (r : Request) (document : Element),
      ((fetch a.base "cal/" .contact hrefs).run a s).2.server.received = [r] ∧
        Xml.parse r.body = .ok document ∧
        Report.Asks .contact
          ["/dav/cal/<a>&.ics", "/dav/cal/b.ics", "/dav/", "/dav/cal/<a>&.ics"] document) ∧
      (fetch a.base "cal/" .contact ["\n", ""]).run a s = (.ok [], s) := by
  intro a hrefs s
  have hbase : Uri.read "https://dav.example/dav" = .ok a.base := by rfl
  have hfolder : a.base.resolve "cal/" = .ok { a.base with target := ⟨"/dav/cal/", none⟩ } :=
    eq_ok_of_toOption (by decide +kernel)
  constructor
  · have hwanted :
        ((hrefs.map Text.trim).filter fun href => !href.isEmpty).map a.base.absolute =
          ["/dav/cal/<a>&.ics", "/dav/cal/b.ics", "/dav/", "/dav/cal/<a>&.ics"] := by
      decide +kernel
    have hasked := (fetch_asks_for_hrefs .contact hrefs hbase hfolder s).2
    rw [hwanted] at hasked
    obtain ⟨r, document, -, hreceived, -, -, -, hparse, hasks⟩ := hasked (List.cons_ne_nil _ _)
    have hfirst : s.server.received ++ [r] = [r] := rfl
    exact ⟨r, document, (hreceived rfl).trans hfirst, hparse, hasks⟩
  · have hblank :
        ((["\n", ""].map Text.trim).filter fun href => !href.isEmpty).map a.base.absolute = [] := by
      decide +kernel
    exact (fetch_asks_for_hrefs .contact ["\n", ""] hbase hfolder s).1 hblank

end Client
end PimDav
