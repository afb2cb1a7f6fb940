import PimDav.Proofs.Client.Storing
import PimDav.Proofs.Client.Twins

/-!
# Credentials are shown to the server alone

Every request shows the credentials of its account in a field of its own, the first one.
Nothing else depends on them: not what is handed out or noted, not the headers that are
remembered, and none of the forms that are meant for people.
-/

namespace PimDav

open Http (Call Field Headers Request)

/-- The request without what it says about who sent it. -/
def Http.Request.blackedOut (r : Request) : Request :=
  { r with
    headers := ⟨r.headers.fields.modifyHead fun f =>
      if f.name == "authorization" then { f with value := [] } else f⟩ }

/-- The record without what its requests say about who sent them. -/
def Record.blackedOut (r : Record) : Record :=
  { r with received := r.received.map Request.blackedOut }

/-- What is seen when it is left out who sent the requests. -/
def Onlooker.ofBlackedOut : Onlooker Request :=
  ⟨Request.blackedOut, fun _ => true⟩

theorem Record.Alike.blackedOut_eq
    {r q : Record}
    (hrq : r.Alike .ofBlackedOut True q) :
    r.blackedOut = q.blackedOut := by
  have hlog : r.log = q.log := hrq.log_eq fun _ => rfl
  have hrequests : r.received.map Request.blackedOut = q.received.map Request.blackedOut :=
    hrq.received
  rw [Record.blackedOut, Record.blackedOut, hrequests, hrq.result, hrq.unused, hlog,
    hrq.headers trivial]

/-- What is written of headers does not depend on the values of a field that shows
credentials, nor on how many such fields there are. -/
theorem Exchange.transcript_congr
    {h k : Headers}
    (hnames : h.names = k.names)
    (hvalues : ∀ name, name ≠ "authorization" → h.all name = k.all name)
    (body : Bytes) :
    transcript h body = transcript k body := by
  have hname (name : String) : transcriptOfName h name = transcriptOfName k name := by
    by_cases hauthorization : name = "authorization"
    · rw [hauthorization]
      rfl
    · rw [transcriptOfName, transcriptOfName, hvalues name hauthorization]
  rw [transcript, transcript, hnames, List.map_congr_left fun name _ => hname name]

namespace Account

def withCredentials
    (a : Account)
    (c : Credentials) : Account :=
  { a with credentials := some c }

/-- Requests are told apart by the credentials in their first field, and by no more. -/
theorem alike_withCredentials
    (a : Account)
    (first second : Credentials) :
    (a.withCredentials first).Alike .ofBlackedOut .ofBlackedOut (a.withCredentials second) where
  base := rfl
  timeout := rfl
  request := by
    intro c uri
    simp [Onlooker.ofBlackedOut, Request.blackedOut, Exchange.request, withCredentials,
      Credentials.field, Field.ofText]
  offWire := fun _ _ => rfl
  wire := fun _ _ => rfl

theorem configured_withCredentials
    (a : Account)
    (c : Credentials)
    (directive : Directive) :
    directive.configured (a.withCredentials c) =
      (directive.configured a).withCredentials c := by
  cases directive <;> rfl

end Account

namespace Desk

def withCredentials
    (d : Desk)
    (c : Credentials) : Desk :=
  { d with account := d.account.withCredentials c }

/-- A directive leads to the same with any credentials, and to the same desk but for them. -/
theorem handle_withCredentials
    (d : Desk)
    (first second : Credentials)
    (server : Server)
    (directive : Directive) :
    let one := (d.withCredentials first).handle server directive
    let other := (d.withCredentials second).handle server directive
    one.1.blackedOut = other.1.blackedOut ∧
      ∃ later : Desk,
        one.2 = later.withCredentials first ∧ other.2 = later.withCredentials second := by
  intro one other
  have hrecords : one.1.Alike .ofBlackedOut True other.1 :=
    handle_alike (d := d.withCredentials first) (e := d.withCredentials second)
      (d.account.alike_withCredentials first second) (fun _ _ => rfl) (fun _ => rfl) server
  refine ⟨hrecords.blackedOut_eq, ?_⟩
  have hdesk (c : Credentials) :
      ((d.withCredentials c).handle server directive).2 =
        { account := (directive.configured d.account).withCredentials c
          lastHeaders := ((d.withCredentials c).handle server directive).1.lastHeaders
          items := directive.added ((d.withCredentials c).handle server directive).1.result ++
            d.items } := by
    rw [desk_handle, ← Account.configured_withCredentials]
    rfl
  let later : Desk :=
    { account := directive.configured d.account
      lastHeaders := one.1.lastHeaders
      items := directive.added one.1.result ++ d.items }
  have hother : { later with
      lastHeaders := other.1.lastHeaders
      items := directive.added other.1.result ++ d.items } = later := by
    rw [← hrecords.result, ← hrecords.headers trivial]
  exact ⟨later, hdesk first, (hdesk second).trans (congrArg (withCredentials · second) hother)⟩

/-- Any work leads to the same desk, but for the credentials. -/
theorem handleAll_withCredentials
    (d : Desk)
    (first second : Credentials)
    (work : List (Server × Directive)) :
    ∃ later : Desk,
      (d.withCredentials first).handleAll work = later.withCredentials first ∧
        (d.withCredentials second).handleAll work = later.withCredentials second := by
  induction work generalizing d with
  | nil => exact ⟨d, rfl, rfl⟩
  | cons w work ih =>
    obtain ⟨-, next, hone, hother⟩ := d.handle_withCredentials first second w.1 w.2
    obtain ⟨later, hfirst, hsecond⟩ := ih next
    exact ⟨later, (congrArg (handleAll · work) hone).trans hfirst,
      (congrArg (handleAll · work) hother).trans hsecond⟩

/-- Two clients that were made with different credentials, after the same work with servers
that reply the same: either is described in the same words, remembers the same and keeps the
same items, and the next directive leads to the same at both, but for the field of each
request that shows the credentials.  Such fields do not show in what is written of headers
either, and a password shows in no written form of the settings. -/
theorem credentials_shown_only_to_server
    (d : Desk)
    (first second : Credentials)
    (work : List (Server × Directive)) :
    let one := (d.withCredentials first).handleAll work
    let other := (d.withCredentials second).handleAll work
    (one.account.described = other.account.described ∧
      one.account.describedClient = other.account.describedClient ∧
      one.lastHeaders = other.lastHeaders ∧ one.items = other.items ∧
      ∀ server directive,
        (one.handle server directive).1.blackedOut =
          (other.handle server directive).1.blackedOut) ∧
    (∀ (h k : Headers) (body : Bytes), h.names = k.names →
      (∀ name, name ≠ "authorization" → h.all name = k.all name) →
      Exchange.transcript h body = Exchange.transcript k body) ∧
    ∀ (config : Config) (password : String),
      { config with password }.described = config.described ∧
        { config with password }.written = config.written := by
  intro one other
  obtain ⟨later, hone, hother⟩ := d.handleAll_withCredentials first second work
  have hone : one = later.withCredentials first := hone
  have hother : other = later.withCredentials second := hother
  refine ⟨?_, ?_, ?_⟩
  · rw [hone, hother]
    refine ⟨rfl, rfl, rfl, rfl, ?_⟩
    intro server directive
    exact (later.handle_withCredentials first second server directive).1
  · intro h k body hnames hvalues
    exact Exchange.transcript_congr hnames hvalues body
  · intro config password
    exact ⟨rfl, rfl⟩

/-- A client with other credentials after a dumped listing that failed, and one header map
with two fields that show credentials against one with a single, shorter one. -/
theorem credentials_shown_only_to_server_dumped :
    let d : Desk :=
      { account := { base := ⟨"https", "dav.example", ⟨"/dav/", none⟩⟩, dumps := true } }
    let work : List (Server × Directive) :=
      [({ replies := [.answer { code := 401 }] }, .operate (.listFolders .event) none)]
    let again := Directive.operate (.search "cal/" .event none) none
    let h : Headers := ⟨[.ofText "authorization" "Basic YTpi", .ofText "dav" "1",
      .ofText "authorization" "Bearer x"]⟩
    let k : Headers := ⟨[.ofText "authorization" "none", .ofText "dav" "1"]⟩
    (((d.withCredentials ⟨"a", "secret"⟩).handleAll work).handle {} again).1.blackedOut =
        (((d.withCredentials ⟨"b", "x"⟩).handleAll work).handle {} again).1.blackedOut ∧
      Exchange.transcript h [] = Exchange.transcript k [] := by
  intro d work again h k
  obtain ⟨⟨-, -, -, -, hnext⟩, htranscript, -⟩ :=
    credentials_shown_only_to_server d ⟨"a", "secret"⟩ ⟨"b", "x"⟩ work
  have hvalues : ∀ name, name ≠ "authorization" → h.all name = k.all name := by
    intro name hname
    simp [h, k, Headers.all, Field.ofText, List.filter_cons, hname.symm]
  exact ⟨hnext {} again, htranscript h k [] (by decide +kernel) hvalues⟩

end Desk
end PimDav
