import PimDav.Operation
import PimDav.Proofs.Attempts
import PimDav.Proofs.Client.Storing

/-!
# The conduct of a plan

Whatever a plan is answered, it makes only calls of certain kinds and writes only entries
of certain kinds into the log.  What every part of an operation keeps to is the same
for plans that are put together from these parts.
-/

namespace PimDav

open Http (Call Receipt)

namespace Plan

variable {α β : Type} {calls : Call → Prop} {entries : Entry → Prop}

/-- Whether a plan makes only such calls and writes only such entries, whatever it is
answered. -/
def KeepsTo
    (calls : Call → Prop)
    (entries : Entry → Prop) : Plan α → Prop
  | done _ => True
  | fail _ => True
  | note entry next => entries entry ∧ next.KeepsTo calls entries
  | ask call complaints next =>
    calls call ∧ (∀ f, ∀ entry ∈ complaints f, entries entry) ∧
      ∀ receipt, (next receipt).KeepsTo calls entries

theorem keepsTo_andThen
    {p : Plan α}
    {k : α → Plan β}
    (hp : p.KeepsTo calls entries)
    (hk : ∀ value, (k value).KeepsTo calls entries) :
    (p.andThen k).KeepsTo calls entries := by
  induction p with
  | done value => exact hk value
  | fail f => trivial
  | note entry next ih => exact ⟨hp.1, ih hp.2⟩
  | ask call complaints next ih =>
    obtain ⟨hcall, hcomplaints, hnext⟩ := hp
    exact ⟨hcall, hcomplaints, fun receipt => ih receipt (hnext receipt)⟩

theorem keepsTo_andThen_done
    {p : Plan α}
    (hp : p.KeepsTo calls entries)
    (result : α → β) :
    (p.andThen fun value => .done (result value)).KeepsTo calls entries := by
  apply keepsTo_andThen hp
  intro value
  trivial

/-- Whoever keeps to some calls and entries keeps to more of them. -/
theorem KeepsTo.mono
    {p : Plan α}
    {moreCalls : Call → Prop}
    {moreEntries : Entry → Prop}
    (hp : p.KeepsTo calls entries)
    (hcalls : ∀ c, calls c → moreCalls c)
    (hentries : ∀ entry, entries entry → moreEntries entry) :
    p.KeepsTo moreCalls moreEntries := by
  induction p with
  | done value => trivial
  | fail f => trivial
  | note entry next ih => exact ⟨hentries entry hp.1, ih hp.2⟩
  | ask call complaints next ih =>
    obtain ⟨hcall, hcomplaints, hnext⟩ := hp
    refine ⟨hcalls call hcall, ?_, fun receipt => ih receipt (hnext receipt)⟩
    intro f entry hentry
    exact hentries entry (hcomplaints f entry hentry)

theorem keepsTo_call
    {c : Call}
    (hc : calls c) :
    (Plan.call c).KeepsTo calls entries :=
  ⟨hc, nofun, fun _ => trivial⟩

theorem keepsTo_callNoting
    {c : Call}
    {complaint : Fault → Entry}
    (hc : calls c)
    (hcomplaint : ∀ f, entries (complaint f)) :
    (Plan.callNoting complaint c).KeepsTo calls entries := by
  refine ⟨hc, ?_, fun _ => trivial⟩
  intro f entry hentry
  obtain rfl := List.mem_singleton.1 hentry
  exact hcomplaint f

theorem keepsTo_ofExcept
    (outcome : Except Fault α) :
    (Plan.ofExcept outcome).KeepsTo calls entries := by
  cases outcome <;> trivial

/-- The calls that were tried are among those that the plan keeps to. -/
theorem KeepsTo.call_of_mem
    {p : Plan α}
    {a : Account}
    {s : Session}
    {t : Attempt}
    (hp : p.KeepsTo calls entries)
    (ht : t ∈ p.attempts a s.server) :
    calls t.call := by
  induction p generalizing s with
  | done value => cases ht
  | fail f => cases ht
  | note entry next ih => exact ih (s := s) hp.2 ht
  | ask call complaints next ih =>
    obtain ⟨hcall, -, hnext⟩ := hp
    rcases mem_attempts_ask ht with rfl | ⟨receipt, later, ht⟩
    · exact hcall
    · exact ih receipt (hnext receipt) ht

end Plan

namespace Entry

/-- Whether an entry shows nothing of an exchange. -/
def IsOffWire (entry : Entry) : Prop :=
  entry.origin ≠ .wire

end Entry

/-- Whether a plan leaves it to its exchanges to show what goes over the wire. -/
def Plan.IsOffWire
    {α : Type}
    (p : Plan α) : Prop :=
  p.KeepsTo (fun _ => True) Entry.IsOffWire

theorem Plan.KeepsTo.isOffWire
    {α : Type}
    {p : Plan α}
    {calls : Call → Prop}
    (hp : p.KeepsTo calls Entry.IsOffWire) :
    p.IsOffWire := by
  apply hp.mono
  · intro c _
    trivial
  · intro entry hentry
    exact hentry

namespace Http
namespace Call

/-- Whether a call asks for properties. -/
def IsPropfind (c : Call) : Prop :=
  c.method = "PROPFIND"

theorem isPropfind_propfind
    {href : String}
    {d : Depth}
    {body : Xml.Element} :
    (propfind href d body).IsPropfind :=
  rfl

end Call
end Http

/-! What the parts of an operation keep to. -/

open Plan (keepsTo_andThen keepsTo_andThen_done keepsTo_call keepsTo_callNoting)

namespace Discovery

theorem isOffWire_entry
    {level : Level}
    {message : String}
    {details : List (String × String)} :
    (entry level message details).IsOffWire :=
  nofun

theorem keepsTo_step
    (base : Uri)
    (k : Kind)
    (stage : Stage) :
    (step base k stage).KeepsTo Call.IsPropfind Entry.IsOffWire := by
  cases stage with
  | start =>
    apply keepsTo_andThen (keepsTo_call Call.isPropfind_propfind)
    intro receipt
    cases principals receipt.responses with
    | nil => exact ⟨isOffWire_entry, trivial⟩
    | cons sent more =>
      dsimp only
      cases more.find? (· != sent) with
      | none => exact ⟨isOffWire_entry, trivial⟩
      | some other => exact ⟨isOffWire_entry, isOffWire_entry, trivial⟩
  | principal href =>
    apply keepsTo_andThen (keepsTo_call Call.isPropfind_propfind)
    intro receipt
    cases firstHref? receipt.responses k.vocabulary.homeSet with
    | none => exact ⟨isOffWire_entry, trivial⟩
    | some sent => exact ⟨isOffWire_entry, trivial⟩
  | home href below => trivial
  | failed missing => trivial

theorem keepsTo_search
    (base : Uri)
    (k : Kind) :
    (search base k).KeepsTo Call.IsPropfind Entry.IsOffWire := by
  apply keepsTo_andThen (keepsTo_step base k .start)
  intro stage
  exact keepsTo_andThen_done (keepsTo_step base k stage) Stage.found?

theorem keepsTo_notificationHome
    (base : Uri)
    (principal : String) :
    (notificationHome base principal).KeepsTo Call.IsPropfind Entry.IsOffWire := by
  apply keepsTo_andThen (keepsTo_call Call.isPropfind_propfind)
  intro receipt
  cases firstHref? receipt.responses "notification-URL" with
  | none => exact ⟨isOffWire_entry, trivial⟩
  | some sent => exact ⟨isOffWire_entry, trivial⟩

end Discovery

namespace Client

theorem isOffWire_entry
    {level : Level}
    {message : String}
    {details : List (String × String)} :
    (entry level message details).IsOffWire :=
  nofun

theorem isOffWire_complaint
    (message : String)
    (details : List (String × String))
    (f : Fault) :
    (complaint message details f).IsOffWire :=
  isOffWire_entry

theorem keepsTo_listFolders
    (base : Uri)
    (k : Kind) :
    (listFolders base k).KeepsTo Call.IsPropfind Entry.IsOffWire := by
  apply keepsTo_andThen (Discovery.keepsTo_search base k)
  intro found
  cases found with
  | none => trivial
  | some found =>
    apply keepsTo_andThen
      (keepsTo_callNoting Call.isPropfind_propfind (isOffWire_complaint _ _))
    intro receipt
    exact ⟨isOffWire_entry, trivial⟩

theorem keepsTo_notificationHome
    (base : Uri) :
    (notificationHome base).KeepsTo Call.IsPropfind Entry.IsOffWire := by
  apply keepsTo_andThen (Discovery.keepsTo_step base .event .start)
  intro stage
  cases stage with
  | principal href => exact Discovery.keepsTo_notificationHome base href
  | _ => trivial

theorem isOffWire_store
    (item : Item) :
    (store item).IsOffWire := by
  rw [store, typed_put]
  split
  case isTrue => trivial
  case isFalse => exact keepsTo_andThen_done (keepsTo_call trivial) _

theorem isOffWire_fetch
    (base : Uri)
    (folder : String)
    (k : Kind)
    (hrefs : List String) :
    (fetch base folder k hrefs).IsOffWire := by
  unfold fetch
  cases Report.multiget? k ((hrefs.filterMap Text.trimmed?).map base.absolute) with
  | none => trivial
  | some document =>
    exact keepsTo_andThen_done (keepsTo_callNoting trivial (isOffWire_complaint _ _)) _

theorem isOffWire_notificationAt
    (base : Uri)
    (href : String) :
    (notificationAt base href).IsOffWire := by
  apply keepsTo_andThen (keepsTo_call trivial)
  intro receipt
  exact keepsTo_andThen_done (Plan.keepsTo_ofExcept _) _

theorem isOffWire_fetchNotifications
    (base : Uri)
    (listed : List Notification) :
    (fetchNotifications base listed).IsOffWire := by
  induction listed with
  | nil => trivial
  | cons n rest ih =>
    apply keepsTo_andThen (isOffWire_notificationAt base n.href)
    intro fetched
    exact keepsTo_andThen_done ih _

theorem isOffWire_listNotifications
    (base : Uri)
    (topics : List Topic) :
    (listNotifications base topics).IsOffWire := by
  apply keepsTo_andThen (keepsTo_notificationHome base).isOffWire
  intro home
  cases home with
  | none => trivial
  | some home =>
    apply keepsTo_andThen (keepsTo_callNoting trivial (isOffWire_complaint _ _))
    intro receipt
    apply keepsTo_andThen (isOffWire_fetchNotifications base _)
    intro notifications
    exact ⟨isOffWire_entry, trivial⟩

theorem isOffWire_post
    (href : String)
    (document : Xml.Element) :
    (post href document).IsOffWire := by
  apply keepsTo_andThen (Plan.keepsTo_ofExcept _)
  intro c
  exact keepsTo_andThen_done (keepsTo_call trivial) _

end Client

namespace Operation

/-- No operation writes an entry of its own about the wire. -/
theorem isOffWire_plan
    (operation : Operation)
    (base : Uri) :
    (operation.plan base).IsOffWire := by
  cases operation with
  | discover k => exact keepsTo_andThen_done (Discovery.keepsTo_search base k).isOffWire _
  | checkHealth =>
    apply keepsTo_andThen_done
    exact keepsTo_andThen_done (Discovery.keepsTo_search base .event).isOffWire _
  | listFolders k => exact keepsTo_andThen_done (Client.keepsTo_listFolders base k).isOffWire _
  | store item => exact keepsTo_andThen_done (Client.isOffWire_store item) _
  | search folder k component =>
    apply keepsTo_andThen_done
    exact keepsTo_andThen_done (keepsTo_callNoting trivial (Client.isOffWire_complaint _ _)) _
  | fetch folder k hrefs => exact keepsTo_andThen_done (Client.isOffWire_fetch base _ k hrefs) _
  | notificationHome =>
    exact keepsTo_andThen_done (Client.keepsTo_notificationHome base).isOffWire _
  | listNotifications topics =>
    exact keepsTo_andThen_done (Client.isOffWire_listNotifications base topics) _
  | notificationAt href => exact keepsTo_andThen_done (Client.isOffWire_notificationAt base href) _
  | answerInvitation href reply => exact keepsTo_andThen_done (Client.isOffWire_post href _) _
  | share s => exact keepsTo_andThen_done (Client.isOffWire_post s.href _) _
  | notificationHomeOf principal =>
    exact keepsTo_andThen_done (Discovery.keepsTo_notificationHome base principal).isOffWire _
  | call c => exact keepsTo_andThen_done (keepsTo_call trivial) _
  | _ =>
    -- the operations that make one call and note nothing
    apply keepsTo_andThen_done
    exact keepsTo_andThen_done (keepsTo_call trivial) _

end Operation
end PimDav
