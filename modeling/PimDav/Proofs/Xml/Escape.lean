import PimDav.Xml.Entity

/-!
# Escapes read back

Each of the five reserved characters is written as a reference whose name the
reader knows, and every other character as itself.  So nothing that markup
looks for is left in escaped text, and resolving the references of an escaped
value gives the value back.
-/

namespace PimDav
namespace Xml

/-- The name of the reference by which a reserved character is written. -/
def escapeName? (c : Char) : Option (List Char) :=
  if c = '&' then some ['a', 'm', 'p']
  else if c = '<' then some ['l', 't']
  else if c = '>' then some ['g', 't']
  else if c = '\x22' then some ['q', 'u', 'o', 't']
  else if c = '\x27' then some ['a', 'p', 'o', 's']
  else none

theorem escapeName?_eq_none_iff
    {c : Char} :
    escapeName? c = none ↔ c ≠ '&' ∧ c ≠ '<' ∧ c ≠ '>' ∧ c ≠ '\x22' ∧ c ≠ '\x27' := by
  grind [escapeName?]

/-- The reserved characters one by one. -/
theorem eq_of_escapeName?_eq_some
    {c : Char}
    {name : List Char}
    (hname : escapeName? c = some name) :
    c = '&' ∨ c = '<' ∨ c = '>' ∨ c = '\x22' ∨ c = '\x27' := by
  grind [escapeName?]

theorem escapeChar_of_some
    {c : Char}
    {name : List Char}
    (hname : escapeName? c = some name) :
    escapeChar c = '&' :: name ++ [';'] := by
  rcases eq_of_escapeName?_eq_some hname with rfl | rfl | rfl | rfl | rfl <;>
    cases hname <;> rfl

theorem escapeChar_of_none
    {c : Char}
    (hname : escapeName? c = none) :
    escapeChar c = [c] := by
  obtain ⟨hamp, hlt, hgt, hquot, hapos⟩ := escapeName?_eq_none_iff.1 hname
  simp [escapeChar, hamp, hlt, hgt, hquot, hapos]

/-- The reference by which a character is written means that character. -/
theorem referenceChar?_of_escapeName?
    {c : Char}
    {name : List Char}
    (hname : escapeName? c = some name) :
    referenceChar? name = some c := by
  rcases eq_of_escapeName?_eq_some hname with rfl | rfl | rfl | rfl | rfl <;>
    cases hname <;> rfl

/-- The names of references hold nothing that ends a reference or begins another. -/
theorem ne_of_mem_escapeName?
    {c d : Char}
    {name : List Char}
    (hname : escapeName? c = some name)
    (hd : d ∈ name) :
    d ≠ '&' ∧ d ≠ ';' ∧ d ≠ '<' ∧ d ≠ '>' ∧ d ≠ '\x22' ∧ d ≠ '\x27' := by
  have hall : ∀ d ∈ name,
      d ≠ '&' ∧ d ≠ ';' ∧ d ≠ '<' ∧ d ≠ '>' ∧ d ≠ '\x22' ∧ d ≠ '\x27' := by
    rcases eq_of_escapeName?_eq_some hname with rfl | rfl | rfl | rfl | rfl <;>
      · cases hname
        simp
  exact hall d hd

@[simp] theorem escapeChars_nil :
    escapeChars [] = [] := by
  rfl

theorem escapeChars_cons
    (c : Char)
    (cs : List Char) :
    escapeChars (c :: cs) = escapeChar c ++ escapeChars cs := by
  simp [escapeChars]

theorem escapeChars_append
    (cs ds : List Char) :
    escapeChars (cs ++ ds) = escapeChars cs ++ escapeChars ds :=
  List.flatMap_append

/-- Escaped text holds no bracket and no quote. -/
theorem ne_of_mem_escapeChars
    {cs : List Char}
    {d : Char}
    (hd : d ∈ escapeChars cs) :
    d ≠ '<' ∧ d ≠ '>' ∧ d ≠ '\x22' ∧ d ≠ '\x27' := by
  obtain ⟨c, -, hd⟩ := List.mem_flatMap.1 hd
  cases hname : escapeName? c with
  | none =>
    rw [escapeChar_of_none hname, List.mem_singleton] at hd
    rw [hd]
    exact (escapeName?_eq_none_iff.1 hname).2
  | some name =>
    rw [escapeChar_of_some hname, List.cons_append, List.mem_cons, List.mem_append,
      List.mem_singleton] at hd
    rcases hd with rfl | hd | rfl
    · decide
    · exact (ne_of_mem_escapeName? hname hd).2.2
    · decide

/-- The name of a reference is collected up to its semicolon. -/
theorem resolveValue?_name
    (seen name rest : List Char)
    (hname : ∀ d ∈ name, d ≠ '&' ∧ d ≠ ';') :
    resolveValue? (some seen) (name ++ ';' :: rest) =
      (referenceChar? (seen.reverse ++ name)).bind fun r =>
        (resolveValue? none rest).map (r :: ·) := by
  induction name generalizing seen with
  | nil => simp [resolveValue?]
  | cons d name ih =>
    obtain ⟨hamp, hsemicolon⟩ := hname d List.mem_cons_self
    have hstep :
        resolveValue? (some seen) (d :: name ++ ';' :: rest) =
          resolveValue? (some (d :: seen)) (name ++ ';' :: rest) := by
      simp [resolveValue?, hamp, hsemicolon]
    rw [hstep, ih (d :: seen) fun e he => hname e (List.mem_cons_of_mem d he)]
    simp

theorem resolveValue?_escapeChar
    (c : Char)
    (rest : List Char) :
    resolveValue? none (escapeChar c ++ rest) = (resolveValue? none rest).map (c :: ·) := by
  cases hname : escapeName? c with
  | none =>
    have hamp : c ≠ '&' := (escapeName?_eq_none_iff.1 hname).1
    rw [escapeChar_of_none hname]
    simp [resolveValue?, hamp]
  | some name =>
    have hplain : ∀ d ∈ name, d ≠ '&' ∧ d ≠ ';' := by
      intro d hd
      have hne := ne_of_mem_escapeName? hname hd
      exact ⟨hne.1, hne.2.1⟩
    have hbegin :
        resolveValue? none (escapeChar c ++ rest) =
          resolveValue? (some []) (name ++ ';' :: rest) := by
      rw [escapeChar_of_some hname]
      simp [resolveValue?]
    rw [hbegin, resolveValue?_name [] name rest hplain, List.reverse_nil, List.nil_append,
      referenceChar?_of_escapeName? hname, Option.bind_some]

/-- An escaped value is resolved to the value. -/
@[simp] theorem resolveValue?_escapeChars
    (cs : List Char) :
    resolveValue? none (escapeChars cs) = some cs := by
  induction cs with
  | nil => rfl
  | cons c cs ih =>
    rw [escapeChars_cons, resolveValue?_escapeChar, ih, Option.map_some]

end Xml
end PimDav
