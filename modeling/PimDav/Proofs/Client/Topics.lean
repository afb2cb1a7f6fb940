import PimDav.Proofs.Client.Notifications
import PimDav.Proofs.Conduct

/-!
# Topics that are asked for

The listing decides which notifications are fetched, and the document that is fetched says
what its notification is about.  So a caller who asks for topics gets no other ones as long
as no document disagrees with the listing.
-/

namespace PimDav

open Http (Call Reply)
open Notification (Listed)

namespace Attempt

/-- The notification in the document that an attempt fetched. -/
def notification? (t : Attempt) : Option Xml.Element :=
  match t.document with
  | .ok (some root) => (root.alone.descendants "notification").head?
  | _ => none

/-- The topic that this notification has by itself. -/
def ownTopic? (t : Attempt) : Option Topic :=
  t.notification?.bind Notification.topicOf?

end Attempt

namespace Notification
namespace Listed

variable {base : Uri} {l : Listed} {t : Attempt}

/-- The notification in a document, if the document could be read and has one. -/
theorem fetched?_eq_map
    (base : Uri)
    (l : Listed)
    (t : Attempt) :
    l.fetched? base t = t.notification?.map fun e =>
      { ofElement e (base.relative l.href) with topic := some ((topicOf? e).getD l.topic) } := by
  rw [fetched?, Attempt.notification?]
  cases t.document with
  | error f => rfl
  | ok root => cases root <;> rfl

/-- A notification has the topic of its document, or else that of its entry. -/
theorem topic_of_fetched?
    {n : Notification}
    (hn : l.fetched? base t = some n) :
    n.topic = some (t.ownTopic?.getD l.topic) := by
  rw [fetched?_eq_map] at hn
  obtain ⟨e, he, rfl⟩ := Option.map_eq_some_iff.1 hn
  rw [Attempt.ownTopic?, he]
  rfl

/-- A document with a topic has a notification. -/
theorem exists_fetched?_of_ownTopic?
    {topic : Topic}
    (base : Uri)
    (l : Listed)
    (htopic : t.ownTopic? = some topic) :
    ∃ n, l.fetched? base t = some n ∧ n.topic = some topic := by
  obtain ⟨e, he, htopic⟩ := Option.bind_eq_some_iff.1 htopic
  rw [fetched?_eq_map, he]
  refine ⟨_, rfl, ?_⟩
  exact congrArg (fun own => some (own.getD l.topic)) htopic

theorem topic_of_mem_wanted
    {topics : List Topic}
    {responses : List Xml.Element}
    (htopics : topics ≠ [])
    (hl : l ∈ wanted topics responses) :
    l.topic ∈ topics := by
  have hwanted := (List.mem_filter.1 hl).2
  rw [List.isEmpty_eq_false_iff.2 htopics, Bool.false_or] at hwanted
  exact List.contains_iff_mem.1 hwanted

end Listed
end Notification

namespace Client

variable {a : Account} {s : Session} {topics : List Topic} {list : List Notification}

/-- When every wanted entry was fetched, each document could be read. -/
theorem Fetches.exists_document
    {base : Uri}
    {listed : List Listed}
    {gets : List Attempt}
    (hfetches : Fetches base listed gets (.ok list)) :
    ∀ t ∈ gets, ∃ root, t.document = .ok root := by
  intro t ht
  cases hdocument : t.document with
  | ok root => exact ⟨root, rfl⟩
  | error f =>
    obtain ⟨earlier, later, hgets⟩ := List.append_of_mem ht
    cases (hfetches.stops hgets hdocument).2

/-- What a client has done that hands out notifications: there was no collection and nothing
to hand out, or the collection was listed and every wanted entry was fetched after that. -/
theorem listNotifications_ok_cases
    (hdone : ((listNotifications a.base topics).run a s).1 = .ok list) :
    (list = [] ∧
      ∀ t ∈ (listNotifications a.base topics).attempts a s.server, t.call.IsPropfind) ∨
    ∃ before t receipt gets,
      (listNotifications a.base topics).attempts a s.server = before ++ t :: gets ∧
      (∀ u ∈ before, u.call.IsPropfind) ∧
      t.call.IsPropfind ∧
      t.outcome = .ok receipt ∧
      Fetches a.base (Listed.wanted topics receipt.responses) gets (.ok list) := by
  have hsearch : ∀ t ∈ (notificationHome a.base).attempts a s.server, t.call.IsPropfind :=
    fun t ht => (keepsTo_notificationHome a.base).call_of_mem ht
  have hsteps := hdone
  rw [listNotifications_eq] at hsteps
  obtain ⟨found, atHome, hhome, -, hsteps⟩ := Plan.ok_of_andThen hsteps
  cases found with
  | none =>
    obtain ⟨-, htried⟩ := run_listNotifications_of_homeless hhome topics
    rw [htried]
    cases hsteps
    exact Or.inl ⟨rfl, hsearch⟩
  | some home =>
    obtain ⟨receipt, later, hlisting, houtcome, -, -⟩ := Plan.ok_of_ask hsteps
    obtain ⟨hresult, htried, -⟩ := run_listNotifications_of_listing hhome hlisting topics
    have hfetches := fetches_fetchNotifications a (Listed.wanted topics receipt.responses) later
    rw [← wanted_eq, ← hresult, hdone] at hfetches
    exact Or.inr
      ⟨_, _, receipt, _, htried, hsearch, Call.isPropfind_propfind, houtcome, hfetches⟩

/-- The attempts that are no search for a collection and no listing of it. -/
def fetchesOf (tried : List Attempt) : List Attempt :=
  tried.filter (·.call.method == "GET")

theorem fetchesOf_eq_nil
    {tried : List Attempt}
    (htried : ∀ t ∈ tried, t.call.IsPropfind) :
    fetchesOf tried = [] := by
  apply List.filter_eq_nil_iff.2
  intro t ht
  have hmethod : t.call.method = "PROPFIND" := htried t ht
  rw [hmethod]
  decide

/-- What is handed out comes of entries that the listing shows to be about the topics. -/
theorem exists_listed
    (htopics : topics ≠ [])
    (hdone : ((listNotifications a.base topics).run a s).1 = .ok list) :
    let fetched := fetchesOf ((listNotifications a.base topics).attempts a s.server)
    ∃ listed : List Listed,
      (∀ l ∈ listed, l.topic ∈ topics) ∧
        fetched.map (·.call) = listed.map Listed.fetch ∧
        list = (listed.zip fetched).filterMap fun pair => pair.1.fetched? a.base pair.2 := by
  rcases listNotifications_ok_cases hdone with
    ⟨rfl, hcalls⟩ | ⟨before, t, receipt, gets, htried, hbefore, ht, -, hfetches⟩
  · rw [fetchesOf_eq_nil hcalls]
    exact ⟨[], nofun, rfl, rfl⟩
  · obtain ⟨hlength, hlist⟩ := hfetches.finishes hfetches.exists_document
    have hcalls := hfetches.calls
    rw [hlength, List.take_length] at hcalls
    have hget : ∀ u ∈ gets, (u.call.method == "GET") = true := by
      intro u hu
      have hmem : u.call ∈ gets.map (·.call) := List.mem_map_of_mem hu
      rw [hcalls] at hmem
      obtain ⟨l, -, hl⟩ := List.mem_map.1 hmem
      rw [← hl]
      rfl
    have hearlier : ∀ u ∈ before ++ [t], u.call.IsPropfind :=
      List.forall_mem_append.2 ⟨hbefore, List.forall_mem_singleton.2 ht⟩
    have hgets : fetchesOf (before ++ t :: gets) = gets := by
      rw [List.append_cons, fetchesOf, List.filter_append, List.filter_eq_self.2 hget]
      exact congrArg (· ++ gets) (fetchesOf_eq_nil hearlier)
    rw [htried, hgets]
    exact ⟨_, fun l hl => Listed.topic_of_mem_wanted htopics hl, hcalls, Except.ok.inj hlist⟩

/-- A caller who asks for topics gets notifications that the listing says are about them,
and each has such a topic unless its own document has another one.  So all of them have a
topic that was asked for if and only if no document that was fetched has another one. -/
theorem listNotifications_topics_iff
    (htopics : topics ≠ [])
    (hdone : ((listNotifications a.base topics).run a s).1 = .ok list) :
    let fetched := fetchesOf ((listNotifications a.base topics).attempts a s.server)
    (∃ listed : List Listed,
      (∀ l ∈ listed, l.topic ∈ topics) ∧
        fetched.map (·.call) = listed.map Listed.fetch ∧
        list = (listed.zip fetched).filterMap fun pair => pair.1.fetched? a.base pair.2) ∧
    ((∀ n ∈ list, ∃ topic ∈ topics, n.topic = some topic) ↔
      ∀ t ∈ fetched, ∀ topic, t.ownTopic? = some topic → topic ∈ topics) := by
  intro fetched
  obtain ⟨listed, hlisted, hcalls, hlist⟩ := exists_listed htopics hdone
  refine ⟨⟨listed, hlisted, hcalls, hlist⟩, ?_⟩
  have hmem : ∀ n, n ∈ list ↔
      ∃ l t, (l, t) ∈ listed.zip fetched ∧ l.fetched? a.base t = some n := by
    intro n
    rw [hlist, List.mem_filterMap, Prod.exists]
  constructor
  · intro hall t ht topic htopic
    have hlength : fetched.length = listed.length := by
      have hlength := congrArg List.length hcalls
      rwa [List.length_map, List.length_map] at hlength
    have hzip : (listed.zip fetched).map Prod.snd = fetched :=
      List.map_snd_zip (Nat.le_of_eq hlength)
    rw [← hzip] at ht
    obtain ⟨⟨l, u⟩, hpair, rfl⟩ := List.mem_map.1 ht
    obtain ⟨n, hn, hown⟩ := Listed.exists_fetched?_of_ownTopic? a.base l htopic
    obtain ⟨asked, hasked, hsame⟩ := hall n ((hmem n).2 ⟨l, u, hpair, hn⟩)
    rw [hown] at hsame
    cases hsame
    exact hasked
  · intro hown n hn
    obtain ⟨l, t, hpair, hn⟩ := (hmem n).1 hn
    obtain ⟨hl, ht⟩ := List.of_mem_zip hpair
    refine ⟨_, ?_, Listed.topic_of_fetched? hn⟩
    cases htopic : t.ownTopic? with
    | none => exact hlisted l hl
    | some topic => exact hown t ht topic htopic

/-- A server with one notification, which is an invitation as the listing has it, and a
reply as its own document has it. -/
def mislistingServer : Server :=
  let reply (pieces : List String) : Reply :=
    .answer { body := .plain (pieces.flatMap Utf8.encode) }
  let multistatus (href property : String) : Reply :=
    reply ["<?xml?><m><response>", href, "<propstat><prop>", property,
      "</prop></propstat></response></m>"]
  let principal := "<current-user-principal><href>p</href></current-user-principal>"
  let home := "<notification-URL><href>n</href></notification-URL>"
  let topic := "<notificationtype><share-invite-notification/></notificationtype>"
  let document := "<notification><share-reply-notification/></notification>"
  { replies := [multistatus "" principal, multistatus "" home,
      multistatus "<href>n/1</href>" topic, reply [document]] }

theorem run_mislistingServer :
    let a : Account := { base := ⟨"https", "dav.example", ⟨"/dav/", none⟩⟩ }
    ((listNotifications a.base [.invite]).run a { server := mislistingServer }).1 =
      .ok [{ href := "n/1", topic := some .reply }] :=
  eq_ok_of_toOption (by decide +kernel)

/-- The document of the only notification must be the one that disagrees. -/
theorem listNotifications_topics_iff_mislisted :
    let a : Account := { base := ⟨"https", "dav.example", ⟨"/dav/", none⟩⟩ }
    let s : Session := { server := mislistingServer }
    let fetched := fetchesOf ((listNotifications a.base [.invite]).attempts a s.server)
    let list : List Notification := [{ href := "n/1", topic := some .reply }]
    ((listNotifications a.base [.invite]).run a s).1 = .ok list ∧
      ∃ t ∈ fetched, ∃ topic, t.ownTopic? = some topic ∧ topic ∉ [Topic.invite] := by
  intro a s fetched list
  obtain ⟨-, hiff⟩ := listNotifications_topics_iff (List.cons_ne_nil _ _) run_mislistingServer
  refine ⟨run_mislistingServer, ?_⟩
  have hnot : ¬ ∀ n ∈ list, ∃ topic ∈ [Topic.invite], n.topic = some topic := by
    decide
  rw [hiff] at hnot
  simpa using hnot

/-- The notification is handed out to a caller who asked for invitations. -/
theorem listNotifications_hands_out_other_topic :
    let a : Account := { base := ⟨"https", "dav.example", ⟨"/dav/", none⟩⟩ }
    let s : Session := { server := mislistingServer }
    let n : Notification := { href := "n/1", topic := some .reply }
    ((listNotifications a.base [.invite]).run a s).1 = .ok [n] ∧
      ¬ ∃ topic ∈ [Topic.invite], n.topic = some topic := by
  intro a s n
  exact ⟨run_mislistingServer, by decide⟩

end Client
end PimDav
