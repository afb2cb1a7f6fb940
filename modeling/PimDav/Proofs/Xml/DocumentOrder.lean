import Mathlib.Data.List.Sort
import PimDav.Proofs.Xml.TidyTexts

/-!
# Document order

A node below an element has a position, which says by numbers how to go down to it.  In
document order a node comes before those inside it, and it comes together with these before
the next node beside it.  Exactly one list shows every node below an element, each at its
position, in this order.

A search for a name takes of that list the elements that have the name.  The search that
stops early gives the first of them, and the text of an element is what the texts of the list
say one after another.
-/

namespace PimDav
namespace Xml

/-- How to go down to a node: at each step, the number of the next node among those inside. -/
abbrev Position :=
  List Nat

namespace Position

/-- Whether one position comes before another in document order: it is above the other, or
where they part its number is smaller. -/
def Before : Position → Position → Prop :=
  List.Lex (· < ·)

theorem before_irrefl
    (p : Position) :
    ¬Before p p :=
  List.lex_irrefl Nat.lt_irrefl p

theorem before_asymm
    {p q : Position}
    (h : Before p q) :
    ¬Before q p :=
  List.lex_asymm Nat.lt_asymm h

end Position

open Position (Before)

namespace Node

def element? : Node → Option Element
  | text _ => none
  | element e => some e

def text? : Node → Option String
  | text s => some s
  | element _ => none

/-- All text of a node. -/
def textContent : Node → String
  | text s => s
  | element e => e.textContent

/-- The nodes directly inside. -/
def inside : Node → List Node
  | text _ => []
  | element e => e.nodes

/-- The node at a position, if the position leads to one. -/
def at? (n : Node) : Position → Option Node
  | [] => some n
  | i :: p => n.inside[i]?.bind (·.at? p)

theorem at?_text_eq_some
    {v : String}
    {p : Position}
    {n : Node} :
    (text v).at? p = some n ↔ p = [] ∧ n = text v := by
  cases p with
  | nil => simp [at?, eq_comm]
  | cons i p => simp [at?, inside]

end Node

/-- Whether a position leads to a node, where the first of the given nodes has the number `i`. -/
def Leads
    (i : Nat)
    (nodes : List Node)
    (p : Position)
    (n : Node) : Prop :=
  ∃ j m, nodes[j]? = some m ∧ ∃ q, p = (i + j) :: q ∧ m.at? q = some n

section Leading

variable {i : Nat} {nodes : List Node} {p : Position} {n : Node}

theorem Leads.ne_nil
    (h : Leads i nodes p n) :
    p ≠ [] := by
  obtain ⟨j, m, -, q, rfl, -⟩ := h
  exact List.cons_ne_nil _ _

theorem not_leads_nil :
    ¬Leads i [] p n := by
  rintro ⟨j, m, hm, -⟩
  cases hm

/-- A position leads into the first node or past it. -/
theorem leads_cons
    {d : Node} :
    Leads i (d :: nodes) p n ↔
      (∃ q, p = i :: q ∧ d.at? q = some n) ∨ Leads (i + 1) nodes p n := by
  have hnumber (j : Nat) : i + (j + 1) = i + 1 + j := by omega
  constructor
  · rintro ⟨_ | j, m, hm, q, rfl, hq⟩
    · cases hm
      exact Or.inl ⟨q, rfl, hq⟩
    · exact Or.inr ⟨j, m, hm, q, by rw [hnumber j], hq⟩
  · rintro (⟨q, rfl, hq⟩ | ⟨j, m, hm, q, rfl, hq⟩)
    · exact ⟨0, d, rfl, q, rfl, hq⟩
    · exact ⟨j + 1, m, hm, q, by rw [hnumber j], hq⟩

theorem Node.at?_element_eq_some
    {e : Element} :
    (element e).at? p = some n ↔ (p = [] ∧ n = element e) ∨ Leads 0 e.nodes p n := by
  cases p with
  | nil => simp [at?, Leads, eq_comm]
  | cons i p => simp [at?, inside, Leads, Option.bind_eq_some_iff]

end Leading

/-- Whether a list shows every node below an element, each at its position, in document
order. -/
structure Element.IsWalk
    (e : Element)
    (walk : List (Position × Node)) : Prop where
  ordered : walk.Pairwise fun m n => Before m.1 n.1
  complete : ∀ p n, (p, n) ∈ walk ↔ p ≠ [] ∧ (Node.element e).at? p = some n

namespace Content

/-- All nodes at any depth, each at its position, where the first node has the number `i`. -/
def walk (i : Nat) : Content → List (Position × Node)
  | nothing => []
  | text v after => ([i], .text v) :: walk (i + 1) after
  | element tag inside after =>
    ([i], .element ⟨tag, inside⟩) ::
      ((walk 0 inside).map (fun m => (i :: m.1, m.2)) ++ walk (i + 1) after)

/-- A walk shows every node that a position leads to. -/
theorem mem_walk
    {c : Content}
    {i : Nat}
    {p : Position}
    {n : Node} :
    (p, n) ∈ c.walk i ↔ Leads i c.nodes p n := by
  induction c generalizing i p n with
  | nothing => simp [walk, nodes, not_leads_nil]
  | text v after ih =>
    have hfirst :
        (p, n) = ([i], Node.text v) ↔ ∃ q, p = i :: q ∧ (Node.text v).at? q = some n := by
      simp [Node.at?_text_eq_some]
    rw [walk, nodes, List.mem_cons, leads_cons, hfirst, ih]
  | element tag inside after ihInside ihAfter =>
    -- A position that leads into the element is its own or goes on inside.
    have hfirst :
        (p, n) = ([i], Node.element ⟨tag, inside⟩) ∨
            (p, n) ∈ (inside.walk 0).map (fun m => (i :: m.1, m.2)) ↔
          ∃ q, p = i :: q ∧ (Node.element ⟨tag, inside⟩).at? q = some n := by
      simp only [Node.at?_element_eq_some, List.mem_map, Prod.exists, ihInside, Prod.mk.injEq]
      constructor
      · rintro (⟨rfl, rfl⟩ | ⟨q, m, hleads, rfl, rfl⟩)
        · exact ⟨[], rfl, Or.inl ⟨rfl, rfl⟩⟩
        · exact ⟨q, rfl, Or.inr hleads⟩
      · rintro ⟨q, rfl, ⟨rfl, rfl⟩ | hleads⟩
        · exact Or.inl ⟨rfl, rfl⟩
        · exact Or.inr ⟨q, n, hleads, rfl, rfl⟩
    rw [walk, nodes, List.mem_cons, List.mem_append, leads_cons, ← or_assoc, hfirst, ihAfter]

/-- The positions of a walk begin with the number of the first node or a greater one. -/
theorem exists_of_mem_walk
    {c : Content}
    {i : Nat}
    {m : Position × Node}
    (hm : m ∈ c.walk i) :
    ∃ j q, m.1 = (i + j) :: q := by
  obtain ⟨j, -, -, q, hq, -⟩ := mem_walk.1 hm
  exact ⟨j, q, hq⟩

/-- Later nodes of a sequence come after an earlier one and all that is inside it. -/
theorem before_of_mem_walk
    {c : Content}
    {i : Nat}
    {m : Position × Node}
    (hm : m ∈ c.walk (i + 1))
    (p : Position) :
    Before (i :: p) m.1 := by
  obtain ⟨j, q, hq⟩ := exists_of_mem_walk hm
  rw [hq]
  exact .rel (by omega)

theorem pairwise_walk
    (c : Content)
    (i : Nat) :
    (c.walk i).Pairwise fun m n => Before m.1 n.1 := by
  induction c generalizing i with
  | nothing => exact .nil
  | text v after ih => exact .cons (fun m hm => before_of_mem_walk hm []) (ih (i + 1))
  | element tag inside after ihInside ihAfter =>
    rw [walk, List.pairwise_cons, List.pairwise_append, List.pairwise_map]
    refine ⟨?_, (ihInside 0).imp .cons, ihAfter (i + 1), ?_⟩
    · intro m hm
      rcases List.mem_append.1 hm with hinside | hafter
      · obtain ⟨d, hd, rfl⟩ := List.mem_map.1 hinside
        obtain ⟨j, q, hq⟩ := exists_of_mem_walk hd
        rw [hq]
        exact .cons .nil
      · exact before_of_mem_walk hafter []
    · intro m hm n hn
      obtain ⟨d, -, rfl⟩ := List.mem_map.1 hm
      exact before_of_mem_walk hn d.1

/-- The elements of a walk are those at any depth. -/
theorem filterMap_element?_walk
    (c : Content)
    (i : Nat) :
    (c.walk i).filterMap (·.2.element?) = c.deepElements := by
  induction c generalizing i with
  | nothing => rfl
  | text v after ih => exact ih (i + 1)
  | element tag inside after ihInside ihAfter =>
    rw [walk, deepElements, ← ihInside 0, ← ihAfter (i + 1), List.filterMap_cons,
      List.filterMap_append, List.filterMap_map]
    rfl

/-- The texts of a walk say all characters. -/
theorem flatMap_text?_walk
    (c : Content)
    (i : Nat) :
    ((c.walk i).filterMap (·.2.text?)).flatMap String.toList = c.characters := by
  induction c generalizing i with
  | nothing => rfl
  | text v after ih =>
    rw [walk, characters, ← ih (i + 1)]
    rfl
  | element tag inside after ihInside ihAfter =>
    rw [walk, characters, ← ihInside 0, ← ihAfter (i + 1), List.filterMap_cons,
      List.filterMap_append, List.filterMap_map, ← List.flatMap_append]
    rfl

/-- The characters come node by node. -/
theorem flatMap_textContent_nodes
    (c : Content) :
    c.nodes.flatMap (·.textContent.toList) = c.characters := by
  induction c with
  | nothing => rfl
  | text v after ih => rw [nodes, characters, List.flatMap_cons, ih, Node.textContent]
  | element tag inside after _ ih =>
    rw [nodes, characters, List.flatMap_cons, ih, Node.textContent, Element.textContent,
      String.toList_ofList]

end Content

namespace Element

/-- All nodes below the element, each at its position. -/
def walk (e : Element) : List (Position × Node) :=
  e.content.walk 0

theorem isWalk_walk
    (e : Element) :
    e.IsWalk e.walk where
  ordered := Content.pairwise_walk e.content 0
  complete p n := by
    have hleads : (p, n) ∈ e.walk ↔ Leads 0 e.nodes p n := Content.mem_walk
    rw [hleads, Node.at?_element_eq_some]
    constructor
    · intro h
      exact ⟨h.ne_nil, Or.inr h⟩
    · rintro ⟨hp, ⟨rfl, -⟩ | h⟩
      · exact absurd rfl hp
      · exact h

/-- Two lists that show the same nodes in document order are the same. -/
theorem IsWalk.unique
    {e : Element}
    {walk other : List (Position × Node)}
    (hwalk : e.IsWalk walk)
    (hother : e.IsWalk other) :
    walk = other := by
  have : Std.Irrefl fun m n : Position × Node => Before m.1 n.1 :=
    ⟨fun m => Position.before_irrefl m.1⟩
  have : Std.Antisymm fun m n : Position × Node => Before m.1 n.1 :=
    ⟨fun _ _ hmn hnm => absurd hnm (Position.before_asymm hmn)⟩
  apply hwalk.ordered.eq_of_mem_iff hother.ordered
  intro m
  rw [hwalk.complete, hother.complete]

theorem textContent_eq_join_iff
    {e : Element}
    {texts : List String} :
    e.textContent = String.join texts ↔ e.content.characters = texts.flatMap String.toList := by
  rw [← String.toList_inj, String.toList_join, textContent, String.toList_ofList]

end Element

/-- Exactly one list shows the nodes below an element in document order, each at its
position.  What is found by a name are the elements of this list that have the name, those
inside a found one included; the search that stops early finds the first of them, and nothing
exactly when there is none.  The text of the element is what the texts of the list say, and so
what the nodes directly inside say one after another. -/
theorem searches_go_in_document_order
    (e : Element)
    (wanted : String) :
    ∃ walk : List (Position × Node),
      (∀ other, e.IsWalk other ↔ other = walk) ∧
      e.descendants wanted = (walk.filterMap (·.2.element?)).filter (·.is wanted) ∧
      e.firstDescendant? wanted = (e.descendants wanted).head? ∧
      (e.firstDescendant? wanted = none ↔ e.descendants wanted = []) ∧
      e.textContent = String.join (walk.filterMap (·.2.text?)) ∧
      e.textContent = String.join (e.nodes.map Node.textContent) := by
  refine ⟨e.walk, ?_, ?_, Element.firstDescendant?_eq_head? e wanted, ?_, ?_, ?_⟩
  · intro other
    constructor
    · intro hother
      exact hother.unique e.isWalk_walk
    · rintro rfl
      exact e.isWalk_walk
  · rw [Element.descendants_eq_filter]
    exact congrArg (List.filter (·.is wanted))
      (Content.filterMap_element?_walk e.content 0).symm
  · rw [Element.firstDescendant?_eq_head?, List.head?_eq_none_iff]
  · rw [Element.textContent_eq_join_iff]
    exact (Content.flatMap_text?_walk e.content 0).symm
  · rw [Element.textContent_eq_join_iff, List.flatMap_map]
    exact (Content.flatMap_textContent_nodes e.content).symm

/-- A name is found inside an element that has it, and texts stand at positions too. -/
example :
    let e := ((Element.new "a").child ((Element.new "d:n").text "x" |>.child (.new "N"))).text "y"
    e.walk.map (·.1) = [[0], [0, 0], [0, 1], [1]] ∧
      (e.descendants "n").map (·.name) = ["d:n", "N"] ∧
      e.walk.filterMap (·.2.text?) = ["x", "y"] := by
  decide +kernel

end Xml
end PimDav
