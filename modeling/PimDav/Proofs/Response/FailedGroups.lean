import PimDav.Proofs.Response.Names

/-!
# Groups of properties that failed

A server may report that it could not tell of some properties, in a group with a status of its
own.  Wherever such groups stand among the nodes of a response, and whatever they hold, the
same is read as without them.
-/

namespace PimDav
namespace Xml
namespace Content

/-- A content and the same one with further elements anywhere among its nodes. -/
inductive Interspersed (extra : Element → Prop) : Content → Content → Prop
  | nothing : Interspersed extra nothing nothing
  | text
      (v : String)
      {after more : Content}
      (hafter : Interspersed extra after more) :
      Interspersed extra (text v after) (text v more)
  | element
      (tag : Tag)
      (inside : Content)
      {after more : Content}
      (hafter : Interspersed extra after more) :
      Interspersed extra (element tag inside after) (element tag inside more)
  | added
      {e : Element}
      (he : extra e)
      {after more : Content}
      (hafter : Interspersed extra after more) :
      Interspersed extra after (element e.tag e.content more)

namespace Interspersed

variable {extra : Element → Prop} {c d : Content}

theorem refl
    (extra : Element → Prop)
    (c : Content) :
    Interspersed extra c c := by
  induction c with
  | nothing => exact nothing
  | text v after ih => exact text v ih
  | element tag inside after _ ih => exact element tag inside ih

/-- A choice that leaves out the further elements chooses the same ones. -/
theorem filter_elements
    {keep : Element → Bool}
    (hextra : ∀ e, extra e → keep e = false)
    (h : Interspersed extra c d) :
    d.elements.filter keep = c.elements.filter keep := by
  induction h with
  | nothing => rfl
  | text v _ ih => exact ih
  | element tag inside _ ih => rw [elements, elements, List.filter_cons, List.filter_cons, ih]
  | added he _ ih => rw [elements, List.filter_cons_of_neg (by simp [hextra _ he]), ih]

/-- A search by a name that no further element has finds the same one. -/
theorem find?_eq
    {wanted : String}
    (hextra : ∀ e, extra e → e.is wanted = false)
    (h : Interspersed extra c d)
    (tag : Tag) :
    (⟨tag, d⟩ : Element).find? wanted = (⟨tag, c⟩ : Element).find? wanted := by
  rw [Element.find?, Element.find?, ← List.head?_filter, ← List.head?_filter]
  exact congrArg List.head? (h.filter_elements hextra)

end Interspersed
end Content
end Xml

namespace Response

open Xml (Element Tag Content)

/-- A group of properties whose status has no code of a success, or no code that can be
read. -/
structure IsFailedGroup (group : Element) : Prop where
  is_propstat : group.is "propstat" = true
  fails : ∃ status, group.find? "status" = some status ∧
    ∀ code, statusCode? (Text.trim status.textContent) = some code → ¬(200 ≤ code ∧ code < 300)

/-- A failed group is known by its own name alone. -/
theorem IsFailedGroup.is_eq_false
    {group : Element}
    (hgroup : IsFailedGroup group)
    {wanted : String}
    (hwanted : Text.caseless "propstat" wanted = false) :
    group.is wanted = false := by
  have hname : Text.lower group.localName = Text.lower "propstat" := eq_of_beq hgroup.is_propstat
  rw [← hwanted]
  exact congrArg (· == Text.lower wanted) hname

theorem reportsSuccess_some
    (status : Element) :
    reportsSuccess (some status) = true ↔
      ∃ code, statusCode? (Text.trim status.textContent) = some code ∧
        200 ≤ code ∧ code < 300 := by
  rw [reportsSuccess]
  cases statusCode? (Text.trim status.textContent) with
  | none => simp
  | some code => simp

/-- The groups that count are those that did not fail. -/
theorem isOkGroup_iff
    {group : Element}
    (hgroup : group.is "propstat" = true) :
    isOkGroup group = true ↔ ¬IsFailedGroup group := by
  rw [isOkGroup, hgroup, Bool.true_and]
  cases hstatus : group.find? "status" with
  | none =>
    refine ⟨fun _ hfailed => ?_, fun _ => rfl⟩
    obtain ⟨status, hsome, -⟩ := hfailed.fails
    rw [hstatus] at hsome
    cases hsome
  | some status =>
    rw [reportsSuccess_some]
    constructor
    · rintro ⟨code, hcode, hsuccess⟩ hfailed
      obtain ⟨other, hother, hfails⟩ := hfailed.fails
      obtain rfl := Option.some.inj (hstatus.symm.trans hother)
      exact hfails code hcode hsuccess
    · intro hfine
      apply Classical.byContradiction
      intro hnone
      exact hfine ⟨hgroup, status, hstatus, fun code hcode hsuccess =>
        hnone ⟨code, hcode, hsuccess⟩⟩

theorem isOkGroup_eq_true_iff
    {group : Element} :
    isOkGroup group = true ↔ group.is "propstat" = true ∧ ¬IsFailedGroup group := by
  constructor
  · intro hok
    have hgroup : group.is "propstat" = true := (Bool.and_eq_true_iff.1 hok).1
    exact ⟨hgroup, (isOkGroup_iff hgroup).1 hok⟩
  · rintro ⟨hgroup, hfine⟩
    exact (isOkGroup_iff hgroup).2 hfine

theorem IsFailedGroup.isOkGroup_eq_false
    {group : Element}
    (hgroup : IsFailedGroup group) :
    isOkGroup group = false := by
  rw [← Bool.not_eq_true, isOkGroup_iff hgroup.is_propstat]
  exact fun hfine => hfine hgroup

/-- The first property with a local name in one group. -/
def propertyOfGroup?
    (name : String)
    (group : Element) : Option Element :=
  (group.elements.filter (·.is "prop")).findSome? (·.find? name)

theorem findSome?_flatMap
    {α β γ : Type}
    (parts : α → List β)
    (find : β → Option γ)
    (xs : List α) :
    (xs.flatMap parts).findSome? find = xs.findSome? fun x => (parts x).findSome? find := by
  induction xs with
  | nil => rfl
  | cons x xs ih =>
    rw [List.flatMap_cons, List.findSome?_append, List.findSome?_cons, ih]
    cases (parts x).findSome? find with
    | none => rfl
    | some found => rfl

theorem property?_eq_findSome?
    (response : Element)
    (name : String) :
    property? response name =
      response.elements.findSome? fun group =>
        if isOkGroup group then propertyOfGroup? name group else none := by
  rw [property?, okProps, findSome?_flatMap, ← List.head?_filterMap, List.filterMap_filter,
    List.head?_filterMap]
  rfl

/-- The first group that counts and reports a property decides. -/
theorem property?_eq_some_iff
    {response property : Element}
    {name : String} :
    property? response name = some property ↔
      ∃ before group after,
        response.elements = before ++ group :: after ∧
        (isOkGroup group = true ∧ propertyOfGroup? name group = some property) ∧
        ∀ g ∈ before, isOkGroup g = true → propertyOfGroup? name g = none := by
  rw [property?_eq_findSome?, List.findSome?_eq_some_iff]
  simp only [Option.ite_none_right_eq_some, ite_eq_right_iff]

/-- What is read of a response rests on its href, its status and its properties. -/
theorem readsAlike_of_property?_eq
    {response other : Element}
    (hhref : href? other = href? response)
    (hok : isOk other = isOk response)
    (hproperty : ∀ name, property? other name = property? response name) :
    ReadsAlike response other where
  href := hhref
  isOk := hok
  text name := by rw [propertyText?, hproperty, propertyText?]
  folder := by
    rw [Folder.ofResponse, Folder.ofResponse, hhref]
    simp only [propertyText?, hproperty]
  item k := by
    rw [Item.ofResponse, Item.ofResponse, hhref]
    simp only [propertyText?, hproperty]
  notification := by
    rw [Notification.ofResponse?, Notification.ofResponse?, hhref, hproperty]

/-- Failed groups anywhere among the nodes of a response change nothing that is read of it, and
among the other groups the first that reports a property decides. -/
theorem failed_groups_are_invisible
    {c d : Content}
    (h : c.Interspersed IsFailedGroup d)
    (tag : Tag) :
    let response : Element := ⟨tag, c⟩
    let other : Element := ⟨tag, d⟩
    okProps other = okProps response ∧
    (∀ name, property? other name = property? response name) ∧
    ReadsAlike response other ∧
    ∀ name property,
      property? other name = some property ↔
        ∃ before group after,
          other.elements = before ++ group :: after ∧
          group.is "propstat" = true ∧
          ¬IsFailedGroup group ∧
          propertyOfGroup? name group = some property ∧
          ∀ g ∈ before, g.is "propstat" = true → ¬IsFailedGroup g →
            propertyOfGroup? name g = none := by
  intro response other
  have hprops : okProps other = okProps response := by
    rw [okProps, okProps]
    exact congrArg (List.flatMap _)
      (h.filter_elements fun _ hgroup => hgroup.isOkGroup_eq_false)
  have hproperty : ∀ name, property? other name = property? response name := by
    intro name
    rw [property?, property?, hprops]
  -- the address and the status of the response are found by names that no group has
  have hfind : ∀ wanted, Text.caseless "propstat" wanted = false →
      other.find? wanted = response.find? wanted :=
    fun _ hwanted => h.find?_eq (fun _ hgroup => hgroup.is_eq_false hwanted) tag
  have hhref : href? other = href? response := by
    rw [href?, href?, hfind "href" (by decide)]
  have hok : isOk other = isOk response := by
    rw [isOk, isOk, hfind "status" (by decide)]
  refine ⟨hprops, hproperty, readsAlike_of_property?_eq hhref hok hproperty, ?_⟩
  intro name property
  rw [property?_eq_some_iff]
  simp only [isOkGroup_eq_true_iff, and_assoc, and_imp]

/-- A group with a status line, and with an address, a property and another status inside. -/
def groupWithStatus (line : String) : Element :=
  let name := ((Element.new "d:displayname").text "Other").child
    ((Element.new "d:status").text "HTTP/1.1 200 OK")
  Element.new "d:propstat"
    |>.child ((Element.new "d:status").text line)
    |>.child ((Element.new "d:href").text "/dav/other/")
    |>.child ((Element.new "d:prop").child name)

theorem isFailedGroup_groupWithStatus
    {line : String}
    (hline : ∀ code, statusCode? (Text.trim line) = some code → ¬(200 ≤ code ∧ code < 300)) :
    IsFailedGroup (groupWithStatus line) := by
  have hgroup : (Element.new "d:propstat").is "propstat" = true := by decide +kernel
  have hstatus : (Element.new "d:status").is "status" = true := by decide +kernel
  refine ⟨hgroup, (Element.new "d:status").text line, ?_, ?_⟩
  · rw [Element.find?, groupWithStatus, Element.elements_child, Element.elements_child,
      Element.elements_child]
    exact List.find?_cons_of_pos hstatus
  · rw [Element.textContent_new_text]
    exact hline

/-- Groups in front of all else, with a status that names a failure and with one that names
nothing. -/
theorem failed_groups_are_invisible_in_front :
    let named : Content :=
      .element { name := "d:href" } (.text "/dav/work/" .nothing)
        (.element { name := "d:propstat" }
          (.element { name := "d:prop" }
            (.element { name := "d:displayname" } (.text "Work" .nothing) .nothing) .nothing)
          .nothing)
    let missing := groupWithStatus "HTTP/1.1 404 Not Found"
    let unread := groupWithStatus "none"
    let other : Element :=
      ⟨{ name := "d:response" },
        .element missing.tag missing.content (.element unread.tag unread.content named)⟩
    ReadsAlike ⟨{ name := "d:response" }, named⟩ other ∧
      Folder.ofResponse other = { href := "/dav/work/", displayName := some "Work" } := by
  intro named missing unread other
  have hmissing : IsFailedGroup missing := by
    apply isFailedGroup_groupWithStatus
    rw [show statusCode? (Text.trim "HTTP/1.1 404 Not Found") = some 404 by decide +kernel]
    intro code hcode
    rw [← Option.some.inj hcode]
    decide
  have hunread : IsFailedGroup unread := by
    apply isFailedGroup_groupWithStatus
    rw [show statusCode? (Text.trim "none") = none by decide +kernel]
    rintro code ⟨⟩
  obtain ⟨-, -, hreads, -⟩ :=
    failed_groups_are_invisible
      (.added hmissing (.added hunread (.refl _ named))) { name := "d:response" }
  exact ⟨hreads, by decide +kernel⟩

end Response
end PimDav
