import PimDav.Desk
import PimDav.Proofs.Plan

/-!
# Storing an item

An item that is kept changes only by being stored, and then only in its entity tag:
the tag of the answer to that very request takes the place of the one before, if
the answer has a readable one.  A failure leaves the item as it was.
-/

namespace PimDav

open Http (Call Field Headers Request)

namespace Http
namespace Headers

/-- Undoing the codings of a body does not touch the entity tag. -/
theorem entityTag?_decoded
    (h : Headers)
    (undone : List Coding) :
    (h.decoded undone).entityTag? = h.entityTag? := by
  have hwithout : (h.without ["content-encoding", "content-length"]).all "etag" = h.all "etag" :=
    h.all_without (by decide)
  unfold decoded
  split
  · rfl
  · rw [entityTag?, hwithout]
    rfl

end Headers
end Http

namespace Http
namespace Call

/-- A call with a body and a content type of its own. -/
def ofType
    (method href contentType : String)
    (body : Bytes) : Call where
  method := method
  href := href
  headers := ⟨[.ofText "content-type" contentType]⟩
  body := some body

theorem typed_eq_ok
    {contentType : String}
    (hvalue : Field.isValue (Field.ofText "content-type" contentType).value = true)
    (method href : String)
    (body : Bytes) :
    typed method href contentType body = .ok (ofType method href contentType body) := by
  rw [typed, if_pos hvalue]
  rfl

end Call
end Http

/-- A content type of its own is the only one that is sent. -/
theorem Exchange.request_ofType
    (a : Account)
    (method href contentType : String)
    (body : Bytes)
    (uri : Uri) :
    let r := request a (.ofType method href contentType body) uri
    r.method = method ∧ r.body = body ∧
      r.headers.all "content-type" = [.ofText "content-type" contentType] := by
  have hfields : (requestHeaders (.ofType method href contentType body)).fields =
      [.ofText "content-type" contentType, .ofText "accept-encoding" "br, zstd, gzip"] := by
    simp [requestHeaders, Call.ofType, Headers.addMissing, Headers.has, Headers.withOffer,
      Headers.add, Field.ofText]
  refine ⟨rfl, rfl, ?_⟩
  rw [request, Headers.all, hfields, List.filter_append]
  have hcredentials :
      (a.credentials.map Credentials.field).toList.filter (·.name == "content-type") = [] := by
    cases a.credentials <;> simp [Credentials.field, Field.ofText]
  rw [hcredentials]
  simp [Field.ofText]

namespace Client

variable {a : Account} {s : Session} {item : Item}

/-- The call that stores an item. -/
def put (item : Item) : Call where
  method := "PUT"
  href := item.href
  headers := ⟨[.ofText "content-type" item.contentType]⟩
  body := some item.body

theorem typed_put
    (item : Item) :
    Call.typed "PUT" item.href item.contentType item.body = .ok (put item) := by
  have hvalue : Field.isValue (Field.ofText "content-type" item.contentType).value = true := by
    rw [Item.contentType]
    cases item.kind <;> decide +kernel
  exact Call.typed_eq_ok hvalue "PUT" item.href item.body

/-- The bytes of a payload are missing when the payload is. -/
theorem isEmpty_body_iff
    (item : Item) :
    item.body.isEmpty = true ↔ item.payload.getD "" = "" := by
  rw [Item.body, List.isEmpty_iff]
  constructor
  · intro hbytes
    by_cases hchars : (item.payload.getD "").toList = []
    · exact String.toList_eq_nil_iff.1 hchars
    · exact absurd hbytes (Utf8.encodeChars_ne_nil hchars)
  · intro hempty
    rw [hempty]
    rfl

/-- An item without a payload is not sent. -/
theorem store_of_empty
    (hempty : item.payload.getD "" = "") :
    store item = .fail (.emptyItem item.href) := by
  rw [store, if_pos ((isEmpty_body_iff item).2 hempty)]

theorem run_store_of_empty
    (hempty : item.payload.getD "" = "")
    (a : Account)
    (s : Session) :
    (store item).run a s = (.error (.emptyItem item.href), s) := by
  rw [store_of_empty hempty, Plan.run]

theorem run_store
    (hpayload : item.payload.getD "" ≠ "")
    (a : Account)
    (s : Session) :
    (store item).run a s =
      match Exchange.perform a (put item) s with
      | (.ok receipt, s) => (.ok { item with tag := receipt.headers.entityTag?.or item.tag }, s)
      | (.error f, s) => (.error f, s) := by
  rw [store, if_neg fun hempty => hpayload ((isEmpty_body_iff item).1 hempty), typed_put]
  rw [Plan.bind_eq, Plan.ofExcept, Plan.andThen, Plan.bind_eq, Plan.call, Plan.andThen, Plan.run]
  cases Exchange.perform a (put item) s with
  | mk outcome later =>
    cases outcome with
    | ok receipt => rfl
    | error f => exact congrArg (Prod.mk _) later.note_nil

theorem request_put
    (a : Account)
    (item : Item)
    (uri : Uri) :
    let r := Exchange.request a (put item) uri
    r.method = "PUT" ∧ r.body = item.body ∧
      r.headers.all "content-type" = [.ofText "content-type" item.contentType] :=
  Exchange.request_ofType a "PUT" item.href item.contentType item.body uri

/-- What is sent to store an item. -/
theorem sent_put
    {sent : List Request}
    (hsent : sent <+: Exchange.requests a (put item)) :
    sent.length ≤ 1 ∧
      ∀ r ∈ sent, r.method = "PUT" ∧ r.body = item.body ∧
        r.headers.all "content-type" = [.ofText "content-type" item.contentType] := by
  refine ⟨Nat.le_trans hsent.length_le (Exchange.length_requests_le a (put item)), ?_⟩
  intro r hr
  obtain ⟨uri, -, rfl⟩ := Exchange.mem_requests.1 (hsent.subset hr)
  exact request_put a item uri

end Client

namespace Directive

/-- Whether a directive leaves a name to the item that has it. -/
def Spares (name : String) : Directive → Prop
  | keep other _ => other ≠ name
  | operate _ (some other) => ∀ n : Nat, other ++ toString n ≠ name
  | _ => True

end Directive

namespace Desk

variable {d : Desk} {name : String}

/-- Directives one after another, each with the server that it meets. -/
def handleAll
    (d : Desk)
    (work : List (Server × Directive)) : Desk :=
  work.foldl (fun d w => (d.handle w.1 w.2).2) d

theorem find?_put
    (d : Desk)
    (name : String)
    (item : Item) :
    (d.put name item).find? name = some item := by
  rw [put, find?, List.lookup_cons_self]

theorem find?_put_of_ne
    {other : String}
    (hother : other ≠ name)
    (d : Desk)
    (item : Item) :
    (d.put other item).find? name = d.find? name := by
  rw [put, find?, List.lookup_cons, beq_false_of_ne hother.symm]
  rfl

theorem find?_putAll
    {other : String}
    (hother : ∀ n : Nat, other ++ toString n ≠ name)
    (d : Desk)
    (items : List Item) :
    (d.putAll other items).find? name = d.find? name := by
  rw [putAll]
  induction items.zipIdx generalizing d with
  | nil => rfl
  | cons numbered rest ih =>
    rw [List.foldl_cons, ih]
    exact find?_put_of_ne (hother numbered.2) d numbered.1

theorem find?_keepItems
    {operation : Operation}
    {keepAs : Option String}
    (hspares : (Directive.operate operation keepAs).Spares name)
    (d : Desk)
    (outcome : Except Fault Outcome) :
    (d.keepItems keepAs outcome).find? name = d.find? name := by
  unfold keepItems
  split
  · split
    case h_1 other _ => exact find?_putAll hspares d _
    case h_2 => rfl
  · rfl

/-- A directive that spares a name and does not store its item has nothing to do with it. -/
theorem find?_handle
    {directive : Directive}
    (hspares : directive.Spares name)
    (hother : directive ≠ .store name)
    (d : Desk)
    (server : Server) :
    (d.handle server directive).2.find? name = d.find? name := by
  have hobey : ∀ s : Session, (d.obey s directive).2.1.find? name = d.find? name := by
    intro s
    cases directive with
    | keep other item => exact find?_put_of_ne hspares d item
    | operate operation keepAs => exact find?_keepItems hspares d _
    | store other =>
      have hname : other ≠ name := fun h => hother (h ▸ rfl)
      rw [obey]
      cases d.find? other with
      | none => rfl
      | some item =>
        dsimp only
        cases (Client.store item).run d.account s with
        | mk outcome later =>
          cases outcome with
          | ok stored => exact find?_put_of_ne hname d stored
          | error f => rfl
    | _ => rfl
  exact hobey _

/-- What a record tells of an item that was stored: how it went and the item afterwards. -/
structure Stored
    (item : Item)
    (server : Server)
    (record : Record)
    (outcome : Except Fault Unit)
    (stored : Item) : Prop where
  result : record.result = .stored outcome stored
  failed : ∀ f, outcome = .error f → stored = item
  /-- The tag is that of the answer, or the one before. -/
  tagged : outcome = .ok () → ∃ answer replies,
    server.reachable = true ∧ server.replies = .answer answer :: replies ∧
      Http.isSuccess answer.code = true ∧
      stored = { item with
        tag := match (answer.headers.all "etag").head?.bind Field.text? with
          | some text => some (Headers.unquoteTag text)
          | none => item.tag }
  empty : item.payload.getD "" = "" →
    outcome = .error (.emptyItem item.href) ∧ record.received = server.received ∧
      record.unused = server.replies.length
  sent : ∃ sent, record.received = server.received ++ sent ∧ sent.length ≤ 1 ∧
    ∀ r ∈ sent, r.method = "PUT" ∧ r.body = Utf8.encode (item.payload.getD "") ∧
      r.headers.all "content-type" =
        [.ofText "content-type" item.kind.vocabulary.contentType]

theorem Stored.eq_withTag
    {item stored : Item}
    {server : Server}
    {record : Record}
    {outcome : Except Fault Unit}
    (hstored : Stored item server record outcome stored) :
    ∃ tag, stored = { item with tag } := by
  cases outcome with
  | error f => exact ⟨item.tag, hstored.failed f rfl⟩
  | ok done =>
    obtain ⟨answer, replies, -, -, -, htag⟩ := hstored.tagged rfl
    exact ⟨_, htag⟩

theorem handle_store
    {item : Item}
    {server : Server}
    {outcome : Except Fault Item}
    {later : Session}
    (hitem : d.find? name = some item)
    (hrun : (Client.store item).run d.account { server, lastHeaders := d.lastHeaders } =
      (outcome, later)) :
    d.handle server (.store name) =
      ({ result := .stored (outcome.map fun _ => ()) (outcome.toOption.getD item)
         received := later.server.received
         unused := later.server.replies.length
         lastHeaders := later.lastHeaders
         log := later.log },
        { outcome.toOption.elim d (d.put name) with lastHeaders := later.lastHeaders }) := by
  rw [handle, obey, hitem]
  dsimp only
  rw [hrun]
  cases outcome <;> rfl

/-- The item that has a name is stored, and the name keeps what became of it. -/
theorem exists_stored
    {item : Item}
    (hitem : d.find? name = some item)
    (server : Server) :
    ∃ outcome stored,
      Stored item server (d.handle server (.store name)).1 outcome stored ∧
        (d.handle server (.store name)).2.find? name = some stored := by
  generalize hs : ({ server, lastHeaders := d.lastHeaders } : Session) = s
  by_cases hpayload : item.payload.getD "" = ""
  · have hrun := Client.run_store_of_empty hpayload d.account s
    subst hs
    rw [handle_store hitem hrun]
    exact ⟨.error (.emptyItem item.href), item,
      { result := rfl
        failed := fun _ _ => rfl
        tagged := nofun
        empty := fun _ => ⟨rfl, rfl, rfl⟩
        sent := ⟨[], (List.append_nil _).symm, Nat.zero_le 1, nofun⟩ },
      hitem⟩
  · have hrun := Client.run_store hpayload d.account s
    obtain ⟨sent, hreceived, hsent⟩ :=
      Exchange.received_perform d.account (Client.put item) s
    cases hdone : Exchange.perform d.account (Client.put item) s with
    | mk outcome later =>
      rw [hdone] at hrun hreceived
      cases outcome with
      | error f =>
        subst hs
        rw [handle_store hitem hrun]
        exact ⟨.error f, item,
          { result := rfl
            failed := fun _ _ => rfl
            tagged := nofun
            empty := fun hempty => absurd hempty hpayload
            sent := ⟨sent, hreceived, Client.sent_put hsent⟩ },
          hitem⟩
      | ok receipt =>
        obtain ⟨uri, answer, replies, -, hreachable, hreplies, hcode, hheaders, -⟩ :=
          Exchange.perform_eq_ok (congrArg Prod.fst hdone)
        subst hs
        rw [handle_store hitem hrun]
        refine ⟨.ok (), _,
          { result := rfl
            failed := nofun
            tagged := fun _ => ⟨answer, replies, hreachable, hreplies, hcode, ?_⟩
            empty := fun hempty => absurd hempty hpayload
            sent := ⟨sent, hreceived, Client.sent_put hsent⟩ },
          find?_put d name _⟩
        rw [hheaders, Headers.entityTag?_decoded, Headers.entityTag?]
        cases (answer.headers.all "etag").head?.bind Field.text? <;> rfl

/-- An item that is kept under a name stays what it is through any work that leaves the
name to it, but for its tag.  Only storing it can change that: a failure changes nothing,
and a success puts the tag of its own answer, if that has a readable one, in the place
of the one before.  What is sent is at most the payload, once. -/
theorem item_changes_only_in_tag
    {item : Item}
    {work : List (Server × Directive)}
    (hitem : d.find? name = some item)
    (hspares : ∀ w ∈ work, w.2.Spares name) :
    ∃ tag,
      let kept := { item with tag }
      let later := d.handleAll work
      later.find? name = some kept ∧
        (∀ server directive, directive.Spares name → directive ≠ .store name →
          (later.handle server directive).2.find? name = some kept) ∧
        ∀ server, ∃ outcome stored,
          Stored kept server (later.handle server (.store name)).1 outcome stored ∧
            (later.handle server (.store name)).2.find? name = some stored := by
  suffices hkept : ∃ tag, (d.handleAll work).find? name = some { item with tag } by
    obtain ⟨tag, hkept⟩ := hkept
    refine ⟨tag, hkept, ?_, exists_stored hkept⟩
    intro server directive hspares hother
    rw [find?_handle hspares hother, hkept]
  induction work generalizing d item with
  | nil => exact ⟨item.tag, hitem⟩
  | cons w work ih =>
    obtain ⟨server, directive⟩ := w
    obtain ⟨hfirst, hrest⟩ := List.forall_mem_cons.1 hspares
    by_cases hstore : directive = .store name
    · subst hstore
      obtain ⟨outcome, stored, hstored, hfind⟩ := exists_stored hitem server
      obtain ⟨first, rfl⟩ := hstored.eq_withTag
      obtain ⟨tag, hlater⟩ := ih hfind hrest
      exact ⟨tag, hlater⟩
    · exact ih ((find?_handle hfirst hstore d server).trans hitem) hrest

/-- A refusal that carries a tag, another operation, and a success. -/
theorem item_changes_only_in_tag_refused :
    let item : Item :=
      { kind := .event, href := "cal/a.ics", tag := some "v1", payload := some "BEGIN" }
    let d : Desk :=
      { account := { base := ⟨"https", "dav.example", ⟨"/dav/", none⟩⟩ }, items := [("a", item)] }
    let reply (code : Nat) (tag : String) : Server :=
      { replies := [.answer { code, headers := ⟨[.ofText "etag" tag]⟩ }] }
    let work : List (Server × Directive) :=
      [(reply 412 "\"v8\"", .store "a"),
        (reply 200 "\"v9\"", .operate (.search "cal/" .event none) (some "found"))]
    let later := d.handleAll work
    later.find? "a" = some item ∧
      ∃ outcome,
        Stored item (reply 204 "\"v2\"") (later.handle (reply 204 "\"v2\"") (.store "a")).1
          outcome { item with tag := some "v2" } := by
  intro item d reply work later
  have hspares : ∀ w ∈ work, w.2.Spares "a" := by
    have hfound : ∀ n : Nat, "found" ++ toString n ≠ "a" := by
      intro n hname
      have hhead := congrArg (fun s : String => s.toList.head?) hname
      rw [String.toList_append] at hhead
      cases hhead
    exact List.forall_mem_cons.2 ⟨trivial, List.forall_mem_singleton.2 hfound⟩
  have hkept : later.find? "a" = some item := by decide +kernel
  have hlast : (later.handle (reply 204 "\"v2\"") (.store "a")).2.find? "a" =
      some { item with tag := some "v2" } := by
    decide +kernel
  have hitem : d.find? "a" = some item := by rfl
  obtain ⟨tag, hfind, -, hstore⟩ := item_changes_only_in_tag hitem hspares
  obtain rfl : item.tag = tag := congrArg Item.tag (Option.some.inj (hkept.symm.trans hfind))
  obtain ⟨outcome, stored, hstored, hfind⟩ := hstore (reply 204 "\"v2\"")
  obtain rfl : { item with tag := some "v2" } = stored :=
    Option.some.inj (hlast.symm.trans hfind)
  exact ⟨hkept, outcome, hstored⟩

end Desk
end PimDav
