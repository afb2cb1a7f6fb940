import PimDav.Proofs.Attempts
import PimDav.Proofs.Client.Leads
import PimDav.Proofs.Text.Words
import PimDav.Proofs.Xml.Search

/-!
# Notifications that are listed and fetched

A collection of notifications is listed first, and then whatever the listing shows to be
wanted is fetched, one after another, until a fetch fails.  What a document says of its
topic counts more than what the listing says.
-/

namespace PimDav

open Http (Call Receipt Reply)
open Xml (Element)

namespace Notification

/-- An entry of a listing: where a notification is and what it is about. -/
structure Listed where
  href : String
  topic : Topic
  deriving DecidableEq, Repr

namespace Listed

/-- The entry that a response makes: it has an href, and its first counting
`notificationtype` has an element inside. -/
def ofResponse? (response : Element) : Option Listed :=
  match Response.href? response,
      (Response.property? response "notificationtype").bind Element.firstElement? with
  | some href, some shown => some ⟨href, .ofName shown.localName⟩
  | _, _ => none

/-- The entries with one of the topics, or with any topic when none is asked for. -/
def wanted
    (topics : List Topic)
    (responses : List Element) : List Listed :=
  (responses.filterMap ofResponse?).filter fun l => topics.isEmpty || topics.contains l.topic

/-- All that a listing says of a notification. -/
def notification (l : Listed) : Notification :=
  { href := l.href, topic := some l.topic }

/-- The call that fetches a notification. -/
def fetch (l : Listed) : Call :=
  .bare "GET" l.href

end Listed
end Notification

namespace Response

/-- An href that is given is not empty. -/
theorem isEmpty_of_href?
    {response : Element}
    {href : String}
    (hhref : href? response = some href) :
    href.isEmpty = false := by
  obtain ⟨e, -, htext⟩ := Option.bind_eq_some_iff.1 hhref
  exact Text.isEmpty_of_trimmed? htext

end Response

namespace Attempt

/-- What an attempt fetched, read as markup; a blank body is no document. -/
def document (t : Attempt) : Except Fault (Option Element) :=
  t.outcome.bind Client.documentOf

end Attempt

namespace Notification
namespace Listed

/-- The notification that came of an entry: the first `notification` of the document that
was fetched.  A document without a topic has the one of the entry. -/
def fetched?
    (base : Uri)
    (l : Listed)
    (t : Attempt) : Option Notification :=
  match t.document with
  | .ok (some root) =>
    ((root.alone.descendants "notification").head?).map fun e =>
      { ofElement e (base.relative l.href) with topic := some ((topicOf? e).getD l.topic) }
  | _ => none

end Listed
end Notification

namespace Client

open Notification (Listed)

/-- The client wants the entries of the listing that have an href and a proper topic. -/
theorem wanted_eq
    (topics : List Topic)
    (responses : List Element) :
    wanted topics responses = (Listed.wanted topics responses).map Listed.notification := by
  have hone : ∀ response : Element,
      ((Notification.ofResponse? response).filter fun n =>
          (topics.isEmpty || n.topic.any topics.contains) && !n.href.isEmpty) =
        ((Listed.ofResponse? response).filter fun l =>
          topics.isEmpty || topics.contains l.topic).map Listed.notification := by
    intro response
    rw [Notification.ofResponse?, Listed.ofResponse?]
    cases (Response.property? response "notificationtype").bind Element.firstElement? with
    | none => cases Response.href? response <;> rfl
    | some shown =>
      cases hhref : Response.href? response with
      | none => simp
      | some href =>
        have hsome : href.isEmpty = false := Response.isEmpty_of_href? hhref
        cases topics.isEmpty || topics.contains (Topic.ofName shown.localName) <;>
          simp [Option.filter, hsome, Listed.notification]
  rw [wanted, Listed.wanted, List.filter_filterMap, List.filter_filterMap, List.map_filterMap]
  exact congrArg (responses.filterMap ·) (funext hone)

/-- The notification in a document is the first one, be it the root itself. -/
theorem notificationIn?_eq
    (root : Element)
    (href : String) :
    notificationIn? root href =
      ((root.alone.descendants "notification").head?).map (Notification.ofElement · href) := by
  rw [notificationIn?, Element.descendants_alone, Element.firstDescendant?_eq_head?]
  cases root.is "notification" <;> rfl

/-- How entries are fetched one after another, and what comes of it. -/
inductive Fetches (base : Uri) :
    List Listed → List Attempt → Except Fault (List Notification) → Prop
  | nothing : Fetches base [] [] (.ok [])
  | failed
      {l : Listed}
      {rest : List Listed}
      {t : Attempt}
      {f : Fault}
      (hcall : t.call = l.fetch)
      (hdocument : t.document = .error f) :
      Fetches base (l :: rest) [t] (.error f)
  | fetched
      {l : Listed}
      {rest : List Listed}
      {t : Attempt}
      {gets : List Attempt}
      {root : Option Element}
      {result : Except Fault (List Notification)}
      (hcall : t.call = l.fetch)
      (hdocument : t.document = .ok root)
      (hrest : Fetches base rest gets result) :
      Fetches base (l :: rest) (t :: gets)
        (result.map fun later => (l.fetched? base t).toList ++ later)

namespace Fetches

variable {base : Uri} {listed : List Listed} {gets : List Attempt}
variable {result : Except Fault (List Notification)}

theorem calls
    (hfetches : Fetches base listed gets result) :
    gets.map (·.call) = (listed.take gets.length).map Listed.fetch := by
  induction hfetches with
  | nothing => rfl
  | failed hcall _ => simp [hcall]
  | fetched hcall _ _ ih => simp [hcall, ih]

theorem stops
    {earlier later : List Attempt}
    {t : Attempt}
    {f : Fault}
    (hfetches : Fetches base listed gets result)
    (hgets : gets = earlier ++ t :: later)
    (hf : t.document = .error f) :
    later = [] ∧ result = .error f := by
  induction hfetches generalizing earlier with
  | nothing => simp at hgets
  | failed _ hdocument =>
    cases earlier with
    | nil =>
      obtain ⟨rfl, rfl⟩ := List.cons.inj hgets
      obtain rfl := Except.error.inj (hdocument.symm.trans hf)
      exact ⟨rfl, rfl⟩
    | cons first earlier => simp at hgets
  | fetched _ hdocument _ ih =>
    cases earlier with
    | nil =>
      obtain ⟨rfl, -⟩ := List.cons.inj hgets
      rw [hdocument] at hf
      cases hf
    | cons first earlier =>
      obtain ⟨hlater, hresult⟩ := ih (List.cons.inj hgets).2
      rw [hresult]
      exact ⟨hlater, rfl⟩

theorem finishes
    (hfetches : Fetches base listed gets result)
    (hfine : ∀ t ∈ gets, ∃ root, t.document = .ok root) :
    gets.length = listed.length ∧
      result = .ok ((listed.zip gets).filterMap fun pair => pair.1.fetched? base pair.2) := by
  induction hfetches with
  | nothing => exact ⟨rfl, rfl⟩
  | failed _ hdocument =>
    obtain ⟨root, hroot⟩ := hfine _ (List.mem_singleton_self _)
    rw [hdocument] at hroot
    cases hroot
  | @fetched l rest t gets root result hcall hdocument hrest ih =>
    obtain ⟨hlength, hresult⟩ := ih fun u hu => hfine u (List.mem_cons_of_mem t hu)
    rw [hresult, List.zip_cons_cons, List.filterMap_cons]
    refine ⟨by rw [List.length_cons, List.length_cons, hlength], ?_⟩
    cases l.fetched? base t <;> rfl

end Fetches

/-- The notification of an entry, as the client finds it. -/
theorem fetched?_eq
    {base : Uri}
    {l : Listed}
    {t : Attempt}
    {root : Option Element}
    (hdocument : t.document = .ok root) :
    l.fetched? base t =
      (root.bind (notificationIn? · (base.relative l.href))).map fun n =>
        { n with topic := n.topic.or (some l.topic) } := by
  rw [Listed.fetched?, hdocument]
  cases root with
  | none => rfl
  | some root =>
    have hone : ∀ e : Element,
        { Notification.ofElement e (base.relative l.href) with
            topic := some ((Notification.topicOf? e).getD l.topic) } =
          ((fun n : Notification => { n with topic := n.topic.or (some l.topic) }) ∘
            (Notification.ofElement · (base.relative l.href))) e := by
      intro e
      have htopic : (Notification.ofElement e (base.relative l.href)).topic =
          Notification.topicOf? e := rfl
      rw [Function.comp_apply, htopic, Option.or_some]
    dsimp only
    rw [Option.bind_some, notificationIn?_eq, Option.map_map, funext hone]

/-- The client fetches the entries in that way. -/
theorem fetches_fetchNotifications
    (a : Account)
    (listed : List Listed)
    (s : Session) :
    Fetches a.base listed
      ((fetchNotifications a.base (listed.map Listed.notification)).attempts a s.server)
      ((fetchNotifications a.base (listed.map Listed.notification)).run a s).1 := by
  induction listed generalizing s with
  | nil => exact .nothing
  | cons l rest ih =>
    have hplan := fetchNotifications_cons_andThen a.base l.notification
      (rest.map Listed.notification) .done
    rw [Plan.andThen_done] at hplan
    rw [List.map_cons, hplan]
    have hcall : (Exchange.attempt a l.fetch s.server).call = l.fetch := rfl
    rcases Plan.ask_cases a (.bare "GET" l.notification.href) _ _ s with
      ⟨f, later, -, houtcome, hrun, htried⟩ | ⟨receipt, later, -, houtcome, hrun, htried⟩
    · rw [hrun, htried]
      apply Fetches.failed hcall
      exact congrArg (Except.bind · documentOf) houtcome
    · have hdocument : (Exchange.attempt a l.fetch s.server).document = documentOf receipt :=
        congrArg (Except.bind · documentOf) houtcome
      rw [hrun, htried]
      cases hroot : documentOf receipt with
      | error f =>
        rw [hroot] at hdocument
        exact .failed hcall hdocument
      | ok root =>
        rw [hroot] at hdocument
        dsimp only
        -- What remains is the rest of the loop, with one notification more in front.
        have hrest := Fetches.fetched hcall hdocument (ih later)
        rw [fetched?_eq hdocument] at hrest
        rw [Plan.attempts_andThen_done, Plan.run_andThen_done]
        exact hrest

/-- The call that lists a collection of notifications. -/
def listingCall (home : String) : Call :=
  .propfind home .one Notification.listing

/-- What is noted at the end. -/
def listedEntry (notifications : List Notification) : Entry :=
  entry .debug "listed notifications" [("count", toString notifications.length)]

theorem listNotifications_eq
    (base : Uri)
    (topics : List Topic) :
    listNotifications base topics =
      (notificationHome base).andThen fun home =>
        match home with
        | none => .done []
        | some home =>
          .ask (listingCall home)
            (fun f => [complaint "failed to list notifications" [("home", home)] f])
            fun receipt =>
              (fetchNotifications base (wanted topics receipt.responses)).andThen
                fun notifications => .note (listedEntry notifications) (.done notifications) := by
  rfl

theorem run_listNotifications_of_homeless
    {a : Account}
    {s atHome : Session}
    (hhome : (notificationHome a.base).run a s = (.ok none, atHome))
    (topics : List Topic) :
    (listNotifications a.base topics).run a s = (.ok [], atHome) ∧
      (listNotifications a.base topics).attempts a s.server =
        (notificationHome a.base).attempts a s.server := by
  rw [listNotifications_eq, Plan.run_andThen, Plan.attempts_andThen, hhome]
  exact ⟨rfl, List.append_nil _⟩

/-- After a listing the rest of the operation is to fetch what the listing shows. -/
theorem run_listNotifications_of_listing
    {a : Account}
    {s atHome later : Session}
    {home : String}
    {receipt : Receipt}
    (hhome : (notificationHome a.base).run a s = (.ok (some home), atHome))
    (hlisting : Exchange.perform a (listingCall home) atHome = (.ok receipt, later))
    (topics : List Topic) :
    let fetch := fetchNotifications a.base (wanted topics receipt.responses)
    ((listNotifications a.base topics).run a s).1 = (fetch.run a later).1 ∧
      (listNotifications a.base topics).attempts a s.server =
        (notificationHome a.base).attempts a s.server ++
          Exchange.attempt a (listingCall home) atHome.server :: fetch.attempts a later.server ∧
      Attempt.LeadTo a later (fetch.attempts a later.server)
        ((listNotifications a.base topics).run a s).2 := by
  intro fetch
  rw [listNotifications_eq, Plan.run_andThen, Plan.attempts_andThen, hhome]
  dsimp only
  rw [Plan.attempts_ask_of_ok hlisting, Plan.run, hlisting]
  dsimp only
  have hled := Plan.leadTo_run a (fetch.andThen fun notifications =>
    .note (listedEntry notifications) (.done notifications)) later
  rw [Plan.attempts_andThen_note] at hled ⊢
  exact ⟨Plan.fst_run_andThen_note a fetch listedEntry later, rfl, hled⟩

end Client
end PimDav
