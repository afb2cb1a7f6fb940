import PimDav.Proofs.Client.Stages
import PimDav.Proofs.Client.Twins
import PimDav.Proofs.Response.FailedGroups
import PimDav.Proofs.Xml.DeepElements

/-!
# Which principal and which home are taken

A listing may report several principals.  The first one that is reported is taken, and the
first of the others that is another one is worth a warning.  Of a home only the first response
of an answer decides, whatever later ones report.
-/

namespace PimDav

open Http (Call Receipt)
open Xml (Element)

/-- The first element of a list that has a property. -/
def IsFirst
    {α : Type}
    (p : α → Prop)
    (xs : List α)
    (x : α) : Prop :=
  ∃ before after, xs = before ++ x :: after ∧ p x ∧ ∀ y ∈ before, ¬p y

theorem isFirst_iff_find?
    {α : Type}
    {p : α → Bool}
    {xs : List α}
    {x : α} :
    IsFirst (p · = true) xs x ↔ xs.find? p = some x := by
  rw [List.find?_eq_some_iff_append]
  simp only [IsFirst, Bool.not_eq_true, Bool.not_eq_true']
  constructor
  · rintro ⟨before, after, hxs, hx, hbefore⟩
    exact ⟨hx, before, after, hxs, hbefore⟩
  · rintro ⟨hx, before, after, hxs, hbefore⟩
    exact ⟨before, after, hxs, hx, hbefore⟩

namespace Response

/-- The properties that a response reports with success, in document order. -/
def reported (response : Element) : List Element :=
  (okProps response).flatMap Element.elements

theorem property?_eq_find?
    (response : Element)
    (name : String) :
    property? response name = (reported response).find? (·.is name) := by
  rw [reported, List.find?_flatMap]
  rfl

/-- What a response reports in a property: the trimmed text of the first `href` at any depth in
the first property with the name, unless nothing is left of the text. -/
def Reports
    (name : String)
    (response : Element)
    (sent : String) : Prop :=
  ∃ property href,
    IsFirst (·.is name = true) (reported response) property ∧
    IsFirst (·.is "href" = true) property.deepElements href ∧
    Text.trim href.textContent = sent ∧ sent ≠ ""

/-- The href in a property of a response. -/
def hrefIn?
    (name : String)
    (response : Element) : Option String :=
  (property? response name).bind hrefBelow?

theorem hrefBelow?_eq_some_iff
    {property : Element}
    {sent : String} :
    hrefBelow? property = some sent ↔
      ∃ href, IsFirst (·.is "href" = true) property.deepElements href ∧
        Text.trim href.textContent = sent ∧ sent ≠ "" := by
  rw [hrefBelow?, Element.firstDescendant?_eq_head?, Element.descendants_eq_filter,
    List.head?_filter, Option.bind_eq_some_iff]
  simp only [isFirst_iff_find?, Element.trimmedText?, Text.trimmed?_eq_some_iff]

theorem reports_iff
    {name : String}
    {response : Element}
    {sent : String} :
    Reports name response sent ↔ hrefIn? name response = some sent := by
  rw [hrefIn?, property?_eq_find?, Option.bind_eq_some_iff]
  simp only [Reports, hrefBelow?_eq_some_iff, isFirst_iff_find?]
  constructor
  · rintro ⟨property, href, hproperty, hhref⟩
    exact ⟨property, hproperty, href, hhref⟩
  · rintro ⟨property, hproperty, href, hhref⟩
    exact ⟨property, href, hproperty, hhref⟩

theorem not_reports_iff
    {name : String}
    {response : Element} :
    (∀ sent, ¬Reports name response sent) ↔ hrefIn? name response = none := by
  simp only [reports_iff]
  exact Option.eq_none_iff_forall_ne_some.symm

/-- What the first response that reports anything reports, and the responses after it. -/
def FirstReport
    (name : String)
    (responses : List Element)
    (sent : String)
    (later : List Element) : Prop :=
  ∃ before response,
    responses = before ++ response :: later ∧
    Reports name response sent ∧
    ∀ r ∈ before, ∀ x, ¬Reports name r x

/-- What the first response that reports something else reports. -/
def OtherReport
    (name : String)
    (sent : String)
    (responses : List Element)
    (other : String) : Prop :=
  ∃ before response after,
    responses = before ++ response :: after ∧
    Reports name response other ∧
    other ≠ sent ∧
    ∀ r ∈ before, ∀ x, Reports name r x → x = sent

theorem firstReport_iff
    {name : String}
    {responses later : List Element}
    {sent : String} :
    FirstReport name responses sent later ↔
      ∃ before response,
        responses = before ++ response :: later ∧
        hrefIn? name response = some sent ∧
        ∀ r ∈ before, hrefIn? name r = none := by
  simp only [FirstReport, reports_iff, Option.eq_none_iff_forall_ne_some, ne_eq]

theorem filterMap_of_firstReport
    {name : String}
    {responses later : List Element}
    {sent : String}
    (hfirst : FirstReport name responses sent later) :
    responses.filterMap (hrefIn? name) = sent :: later.filterMap (hrefIn? name) := by
  obtain ⟨before, response, hresponses, hsent, hbefore⟩ := firstReport_iff.1 hfirst
  exact List.filterMap_eq_cons_iff.2 ⟨before, response, later, hresponses, hbefore, hsent, rfl⟩

theorem exists_firstReport
    {name : String}
    {responses : List Element}
    {sent : String}
    {more : List String}
    (hsome : responses.filterMap (hrefIn? name) = sent :: more) :
    ∃ later, FirstReport name responses sent later ∧ later.filterMap (hrefIn? name) = more := by
  obtain ⟨before, response, later, hresponses, hbefore, hsent, hmore⟩ :=
    List.filterMap_eq_cons_iff.1 hsome
  exact ⟨later, firstReport_iff.2 ⟨before, response, hresponses, hsent, hbefore⟩, hmore⟩

theorem otherReport_iff
    {name : String}
    {responses : List Element}
    {sent other : String} :
    OtherReport name sent responses other ↔
      (responses.filterMap (hrefIn? name)).find? (· != sent) = some other := by
  have hsame : ∀ r, (hrefIn? name r).any (· != sent) = false ↔
      ∀ x, hrefIn? name r = some x → x = sent := by
    intro r
    cases hrefIn? name r <;> simp
  rw [List.find?_filterMap, Option.bind_eq_some_iff]
  simp only [OtherReport, reports_iff, List.find?_eq_some_iff_append, Bool.not_eq_true', hsame]
  constructor
  · rintro ⟨before, response, after, hresponses, hother, hne, hbefore⟩
    refine ⟨response, ⟨?_, before, after, hresponses, hbefore⟩, hother⟩
    rw [hother, Option.any_some, bne_iff_ne]
    exact hne
  · rintro ⟨response, ⟨hdiffers, before, after, hresponses, hbefore⟩, hother⟩
    rw [hother, Option.any_some, bne_iff_ne] at hdiffers
    exact ⟨before, response, after, hresponses, hother, hdiffers, hbefore⟩

end Response

/-- The warnings of a log. -/
def Session.warnings (s : Session) : List Entry :=
  s.log.filter (·.level == .warn)

theorem Session.warnings_note
    (s : Session)
    (entries : List Entry) :
    (s.note entries).warnings = s.warnings ++ entries.filter (·.level == .warn) := by
  rw [warnings, note, List.filter_append]
  rfl

namespace Exchange

/-- An exchange is nothing to be warned of. -/
theorem warnings_perform
    (a : Account)
    (c : Call)
    (s : Session) :
    (perform a c s).2.warnings = s.warnings := by
  have hdump : ∀ (entry : Entry) (t : Session), entry.level = .debug →
      (dump a entry t).warnings = t.warnings := by
    intro entry t hlevel
    have hshown : (entry.level == .warn) = false := by
      rw [hlevel]
      rfl
    rw [Session.warnings, Session.Alike.filter_log_dump, hshown, Bool.and_false]
    exact List.append_nil _
  have hconclude : ∀ uri code h body (t : Session),
      (conclude c uri code h body t).2.warnings = t.warnings := by
    intro uri code h body t
    unfold conclude
    split <;> rfl
  rw [perform]
  cases a.base.resolve c.href with
  | error f => rfl
  | ok uri =>
    dsimp only
    cases decode a.timeout _ with
    | error f => exact hdump _ _ rfl
    | ok decoded =>
      exact (hconclude ..).trans ((hdump _ _ rfl).trans (hdump _ _ rfl))

end Exchange

namespace Discovery

open Response (FirstReport OtherReport Reports)

/-- The name of the property that holds a principal. -/
def principalProperty : String :=
  "current-user-principal"

theorem principals_eq_filterMap
    (responses : List Element) :
    principals responses = responses.filterMap (Response.hrefIn? principalProperty) := by
  rw [principals, List.filterMap_filterMap]
  rfl

/-- The warning that a principal was passed over. -/
def passedOver
    (k : Kind)
    (sent other : String) : Entry :=
  entry .warn "server reported several principals, using the first"
    [("kind", k.component), ("principal", sent), ("other", other)]

theorem principal_eq_some_iff
    {receipt : Receipt}
    {sent : String} :
    principal receipt = some sent ↔
      ∃ later, FirstReport principalProperty receipt.responses sent later := by
  rw [principal, principals_eq_filterMap, List.head?_eq_some_iff]
  constructor
  · rintro ⟨more, hsome⟩
    obtain ⟨later, hfirst, -⟩ := Response.exists_firstReport hsome
    exact ⟨later, hfirst⟩
  · rintro ⟨later, hfirst⟩
    exact ⟨_, Response.filterMap_of_firstReport hfirst⟩

/-- The principal that is gone on with is the first one that is reported. -/
theorem next_start_eq_principal_iff
    {base : Uri}
    {k : Kind}
    {receipt : Receipt}
    {href : String} :
    Stage.start.next base k receipt = .principal href ↔
      ∃ sent later, FirstReport principalProperty receipt.responses sent later ∧
        href = base.relative sent := by
  have hsent : Stage.start.next base k receipt = .principal href ↔
      ∃ sent, principal receipt = some sent ∧ href = base.relative sent := by
    rw [Stage.next]
    cases principal receipt <;> simp [eq_comm]
  simp only [hsent, principal_eq_some_iff, exists_and_right]

theorem principal_eq_none_iff
    {receipt : Receipt} :
    principal receipt = none ↔
      ∀ response ∈ receipt.responses, ∀ sent, ¬Reports principalProperty response sent := by
  simp only [principal, principals_eq_filterMap, List.head?_eq_none_iff,
    List.filterMap_eq_nil_iff, Response.not_reports_iff]

theorem homeSet_eq_some_iff
    {k : Kind}
    {receipt : Receipt}
    {sent : String} :
    homeSet k receipt = some sent ↔
      ∃ response rest, receipt.responses = response :: rest ∧
        Reports k.vocabulary.homeSet response sent := by
  rw [homeSet, firstHref?]
  cases receipt.responses with
  | nil => simp
  | cons response rest => simp [Response.reports_iff, Response.hrefIn?]

theorem next_principal_eq_home_iff
    {base : Uri}
    {k : Kind}
    {receipt : Receipt}
    {principal home : String} :
    (Stage.principal principal).next base k receipt = .home principal home ↔
      ∃ response rest sent, receipt.responses = response :: rest ∧
        Reports k.vocabulary.homeSet response sent ∧ home = base.relative sent := by
  have hsent : (Stage.principal principal).next base k receipt = .home principal home ↔
      ∃ sent, homeSet k receipt = some sent ∧ home = base.relative sent := by
    rw [Stage.next]
    cases homeSet k receipt <;> simp [eq_comm]
  rw [hsent]
  simp only [homeSet_eq_some_iff]
  constructor
  · rintro ⟨sent, ⟨response, rest, hresponses, hreports⟩, hhome⟩
    exact ⟨response, rest, sent, hresponses, hreports, hhome⟩
  · rintro ⟨response, rest, sent, hresponses, hreports, hhome⟩
    exact ⟨sent, ⟨response, rest, hresponses, hreports⟩, hhome⟩

theorem homeSet_eq_none_iff
    {k : Kind}
    {receipt : Receipt} :
    homeSet k receipt = none ↔
      ∀ response rest, receipt.responses = response :: rest →
        ∀ sent, ¬Reports k.vocabulary.homeSet response sent := by
  rw [homeSet, firstHref?]
  cases receipt.responses with
  | nil => simp
  | cons response rest => simp [Response.not_reports_iff, Response.hrefIn?]

/-- The principals that are passed over with a warning: the first other one, if there is any. -/
def warned
    (k : Kind) : List String → List Entry
  | [] => []
  | sent :: more => ((more.find? (· != sent)).map (passedOver k sent)).toList

theorem length_warned_le
    (k : Kind)
    (sent : List String) :
    (warned k sent).length ≤ 1 := by
  cases sent with
  | nil => exact Nat.zero_le 1
  | cons first more =>
    rw [warned]
    cases (more.find? (· != first)).map (passedOver k first) with
    | none => exact Nat.zero_le 1
    | some e => exact Nat.le_refl 1

theorem mem_warned_iff
    {k : Kind}
    {responses : List Element}
    {e : Entry} :
    e ∈ warned k (principals responses) ↔
      ∃ sent later other, FirstReport principalProperty responses sent later ∧
        OtherReport principalProperty sent later other ∧ e = passedOver k sent other := by
  simp only [principals_eq_filterMap, Response.otherReport_iff]
  cases hsent : responses.filterMap (Response.hrefIn? principalProperty) with
  | nil =>
    rw [warned]
    constructor
    · nofun
    · rintro ⟨sent, later, other, hfirst, -⟩
      rw [Response.filterMap_of_firstReport hfirst] at hsent
      cases hsent
  | cons sent more =>
    rw [warned, Option.mem_toList, Option.map_eq_some_iff]
    constructor
    · rintro ⟨other, hother, rfl⟩
      obtain ⟨later, hfirst, rfl⟩ := Response.exists_firstReport hsent
      exact ⟨sent, later, other, hfirst, hother, rfl⟩
    · rintro ⟨first, later, other, hfirst, hother, rfl⟩
      rw [Response.filterMap_of_firstReport hfirst] at hsent
      cases hsent
      exact ⟨other, hother, rfl⟩

section FirstStep

variable {a : Account} {k : Kind} {s : Session} {receipt : Receipt}

/-- What a receipt of the first call leads to. -/
theorem run_start
    (hreceipt : (Exchange.perform a (firstCall k) s).1 = .ok receipt) :
    ((step a.base k .start).run a s).1 = .ok (Stage.start.next a.base k receipt) ∧
      ((step a.base k .start).run a s).2.warnings =
        s.warnings ++ warned k (principals receipt.responses) := by
  have hwarnings := Exchange.warnings_perform a (firstCall k) s
  have hcall : findPrincipal a.base k =
      .ask (firstCall k) (fun _ => []) _ := rfl
  rw [step, hcall, Plan.run, Stage.next, principal]
  cases hdone : Exchange.perform a (firstCall k) s with
  | mk outcome later =>
    rw [hdone] at hreceipt hwarnings
    dsimp only at hreceipt hwarnings
    subst hreceipt
    simp only [Plan.andThen]
    -- What is said of the receipt comes after the log of the call; only one of it may warn.
    cases principals receipt.responses with
    | nil =>
      refine ⟨rfl, (later.warnings_note _).trans ?_⟩
      rw [hwarnings]
      rfl
    | cons sent more =>
      rw [warned]
      dsimp only [List.head?_cons]
      cases more.find? (· != sent) with
      | none =>
        refine ⟨rfl, (later.warnings_note _).trans ?_⟩
        rw [hwarnings]
        rfl
      | some other =>
        refine ⟨rfl, ((later.note _).warnings_note _).trans ?_⟩
        rw [Session.warnings_note, hwarnings]
        exact List.append_nil _

end FirstStep

section SecondStep

variable {a : Account} {k : Kind} {s : Session} {receipt : Receipt} {principal : String}

/-- What a receipt of the second call leads to. -/
theorem run_principal
    (hreceipt : (Exchange.perform a (.propfind principal .zero (homeQuestion k)) s).1 =
      .ok receipt) :
    ((step a.base k (.principal principal)).run a s).1 =
        .ok ((Stage.principal principal).next a.base k receipt) ∧
      ((step a.base k (.principal principal)).run a s).2.warnings = s.warnings := by
  have hwarnings := Exchange.warnings_perform a (.propfind principal .zero (homeQuestion k)) s
  have hcall : findHome a.base k principal =
      .ask (.propfind principal .zero (homeQuestion k)) (fun _ => []) _ := rfl
  rw [step, hcall, Plan.run, Stage.next, homeSet]
  cases hdone : Exchange.perform a (.propfind principal .zero (homeQuestion k)) s with
  | mk outcome later =>
    rw [hdone] at hreceipt hwarnings
    dsimp only at hreceipt hwarnings
    subst hreceipt
    rw [← hwarnings]
    simp only [Plan.andThen]
    cases firstHref? receipt.responses k.vocabulary.homeSet with
    | none => exact ⟨rfl, (later.warnings_note _).trans (List.append_nil _)⟩
    | some sent => exact ⟨rfl, (later.warnings_note _).trans (List.append_nil _)⟩

end SecondStep

/-- The first principal that a listing reports is taken, in document order of its responses:
one whose property is missing, or has no href or a blank one, is passed over.  The search
ends exactly when none is reported.  There is a warning exactly when a later response
reports another principal, and it tells of the first such one.  Of the home only the first
response of the answer decides. -/
theorem first_principal_and_first_home
    (a : Account)
    (k : Kind)
    (s : Session) :
    (∀ receipt, (Exchange.perform a (firstCall k) s).1 = .ok receipt →
      let takes := FirstReport principalProperty receipt.responses
      let done := (step a.base k .start).run a s
      (∀ href, done.1 = .ok (.principal href) ↔
        ∃ sent later, takes sent later ∧ href = a.base.relative sent) ∧
      (done.1 = .ok (.failed .principal) ↔
        ∀ response ∈ receipt.responses, ∀ sent, ¬Reports principalProperty response sent) ∧
      ∃ warnings, done.2.warnings = s.warnings ++ warnings ∧ warnings.length ≤ 1 ∧
        ∀ e, e ∈ warnings ↔
          ∃ sent later other, takes sent later ∧
            OtherReport principalProperty sent later other ∧ e = passedOver k sent other) ∧
    ∀ principal receipt,
      (Exchange.perform a (.propfind principal .zero (homeQuestion k)) s).1 = .ok receipt →
      let reports := Reports k.vocabulary.homeSet
      let done := (step a.base k (.principal principal)).run a s
      (∀ home, done.1 = .ok (.home principal home) ↔
        ∃ response rest sent, receipt.responses = response :: rest ∧
          reports response sent ∧ home = a.base.relative sent) ∧
      (done.1 = .ok (.failed .homeSet) ↔
        ∀ response rest, receipt.responses = response :: rest →
          ∀ sent, ¬reports response sent) ∧
      done.2.warnings = s.warnings := by
  refine ⟨?_, ?_⟩
  · intro receipt hreceipt takes done
    obtain ⟨hstage, hwarnings⟩ := run_start hreceipt
    refine ⟨?_, ?_, _, hwarnings, length_warned_le k _, fun _ => mem_warned_iff⟩
    · intro href
      rw [hstage, Except.ok.injEq]
      exact next_start_eq_principal_iff
    · rw [hstage, ← principal_eq_none_iff, Stage.next]
      cases Discovery.principal receipt <;> simp
  · intro principal receipt hreceipt reports done
    obtain ⟨hstage, hwarnings⟩ := run_principal hreceipt
    refine ⟨?_, ?_, hwarnings⟩
    · intro home
      rw [hstage, Except.ok.injEq]
      exact next_principal_eq_home_iff
    · rw [hstage, ← homeSet_eq_none_iff, Stage.next]
      cases homeSet k receipt <;> simp

/-- A principal in a failed group and a blank one, the one that is taken, the same one again
and two others; and a home that only the second response reports. -/
theorem first_principal_and_first_home_later :
    let a : Account := { base := ⟨"https", "dav.example", ⟨"/dav/", none⟩⟩ }
    let response (property href status : String) : List String :=
      ["<response><propstat>", status, "<prop><", property, "><href>", href, "</href></",
        property, "></prop></propstat></response>"]
    let session (responses : List (List String)) : Session :=
      let pieces := "<?xml?><multistatus>" :: responses.flatten ++ ["</multistatus>"]
      { server := { replies := [.answer {
          code := 207, body := .plain (pieces.flatMap Utf8.encode) }] } }
    let failed := "<status>HTTP/1.1 404</status>"
    let s := session [
      response "current-user-principal" "/dav/x/" failed,
      response "current-user-principal" " " "",
      response "current-user-principal" " /dav/p/ " "",
      response "current-user-principal" "/dav/p/" "",
      response "current-user-principal" "/dav/q/" "",
      response "current-user-principal" "/dav/r/" ""]
    let t := session [
      response "calendar-home-set" "/dav/c/" failed,
      response "calendar-home-set" "/dav/c/" ""]
    ((step a.base .event .start).run a s).1 = .ok (.principal "p/") ∧
      ((step a.base .event .start).run a s).2.warnings =
        [passedOver .event "/dav/p/" "/dav/q/"] ∧
      ((step a.base .event (.principal "p/")).run a t).1 = .ok (.failed .homeSet) := by
  intro a response session failed s t
  have hlisting : (Exchange.perform a (firstCall .event) s).1.toOption.map
      (fun receipt => principals receipt.responses) =
        some ["/dav/p/", "/dav/p/", "/dav/q/", "/dav/r/"] := by
    decide +kernel
  have hhome : (Exchange.perform a (.propfind "p/" .zero (homeQuestion .event)) t).1.toOption.map
      (homeSet .event) = some none := by
    decide +kernel
  obtain ⟨receipt, hreceipt, hprincipals⟩ := Option.map_eq_some_iff.1 hlisting
  obtain ⟨answer, hanswer, hnone⟩ := Option.map_eq_some_iff.1 hhome
  obtain ⟨hprincipal, -, warnings, hwarnings, hlength, hwarned⟩ :=
    (first_principal_and_first_home a .event s).1 receipt (eq_ok_of_toOption hreceipt)
  obtain ⟨-, hfailed, -⟩ :=
    (first_principal_and_first_home a .event t).2 "p/" answer (eq_ok_of_toOption hanswer)
  have hsent : principal receipt = some "/dav/p/" := by
    rw [principal, hprincipals]
    rfl
  have hrelative : a.base.relative "/dav/p/" = "p/" := by decide +kernel
  have hother : passedOver .event "/dav/p/" "/dav/q/" ∈ warnings := by
    have hfind : ["/dav/p/", "/dav/q/", "/dav/r/"].find? (· != "/dav/p/") = some "/dav/q/" := by
      decide
    rw [hwarned, ← mem_warned_iff, hprincipals, warned, hfind]
    exact List.mem_singleton_self _
  have hall : warnings = [passedOver .event "/dav/p/" "/dav/q/"] := by
    obtain ⟨e, rfl⟩ := List.length_eq_one_iff.1
      (Nat.le_antisymm hlength (List.length_pos_of_mem hother))
    rw [List.mem_singleton.1 hother]
  refine ⟨?_, hwarnings.trans hall, hfailed.2 (homeSet_eq_none_iff.1 hnone)⟩
  obtain ⟨later, hfirst⟩ := principal_eq_some_iff.1 hsent
  exact (hprincipal "p/").2 ⟨_, later, hfirst, hrelative.symm⟩

end Discovery
end PimDav
