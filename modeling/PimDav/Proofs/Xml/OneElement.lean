import PimDav.Proofs.Xml.Nesting

/-!
# Documents of one element

A document whose markup and attributes are in order is read exactly when its tags
are those of one element.  What is read is the only tree that shows what the
document shows: texts outside the root are dropped, and texts that are said in
pieces, with references, sections or comments between them, are one.
-/

namespace PimDav
namespace Xml

open Mark (OneElement joined withinRoot)

variable {bytes : Bytes} {marks : List Mark}

/-- A document without a fault in its markup and attributes is built from its marks. -/
theorem parse_eq_finish
    (hwhole : (Event.trail bytes).fault = none)
    (hmarks : Event.allMarks (Event.trail bytes).items = .ok marks) :
    parse bytes = marks.foldlM Builder.take {} >>= Builder.finish := by
  rw [parse, build, Builder.foldlM_step_eq hmarks, hwhole]

/-- A document is read as the only tree with its marks when these are the marks of one
element, and refused otherwise.  At every point of the reading the open elements of the
tree have the names that the reader of names knows them by, so no closing tag is left
without an element. -/
theorem parse_eq_ok_iff_marks
    (bytes : Bytes) :
    (∀ marks, (Event.trail bytes).fault = none →
      Event.allMarks (Event.trail bytes).items = .ok marks →
        ((∃ e, parse bytes = .ok e) ↔ OneElement (marks.filter Mark.isTag)) ∧
          (∀ e, parse bytes = .ok e ↔ e.alone.marks = joined (withinRoot 0 marks)) ∧
          (¬ OneElement (marks.filter Mark.isTag) →
            parse bytes = .error .unfinished ∨ parse bytes = .error .noRoot ∨
              parse bytes = .error .severalRoots)) ∧
      parse bytes ≠ .error .unbalanced ∧
      ∀ tokens p, tokens <+: (Token.trail bytes).items →
        tokens.foldlM Progress.take {} = .ok p →
          p.builder.stack.map Element.name =
            p.scopes.map fun scope => Utf8.decodeLossy scope.name := by
  refine ⟨?_, parse_ne_unbalanced bytes, fun tokens p _ htake => Progress.isNested_foldlM htake⟩
  intro marks hwhole hmarks
  have hparse := parse_eq_finish hwhole hmarks
  refine ⟨?_, ?_, ?_⟩
  · rw [hparse]
    exact Builder.exists_finish_iff
  · intro e
    rw [hparse]
    exact Builder.finish_eq_ok_iff
  · intro hnone
    cases hread : parse bytes with
    | ok e => exact absurd (Builder.exists_finish_iff.1 ⟨e, hparse ▸ hread⟩) hnone
    | error p =>
      rcases Builder.finish_eq_error (hparse ▸ hread) with rfl | rfl | rfl | rfl
      · exact absurd hread (parse_ne_unbalanced bytes)
      · exact Or.inl rfl
      · exact Or.inr (Or.inl rfl)
      · exact Or.inr (Or.inr rfl)

/-- A text in four pieces, and blanks around the root. -/
theorem parse_eq_ok_of_pieces :
    let bytes := Utf8.encode "<?xml?>\n<a k='v'>x<!-- -->y<![CDATA[<z>]]>&amp;<b/></a>\n"
    let a : Tag := { name := "a", attributes := [("k", "v")] }
    let b : Tag := { name := "b" }
    let marks : List Mark :=
      [.tells "\n", .opens a, .tells "x", .tells "y", .tells "<z>", .tells "&", .opens b, .closes,
        .closes, .tells "\n"]
    (Event.trail bytes).fault = none ∧
      Event.allMarks (Event.trail bytes).items = .ok marks ∧
      parse bytes = .ok ⟨a, .text "xy<z>&" (.element b .nothing .nothing)⟩ := by
  intro bytes a b marks
  have hwhole : (Event.trail bytes).fault = none := by decide +kernel
  have hmarks : Event.allMarks (Event.trail bytes).items = .ok marks := by rfl
  obtain ⟨-, hread, -⟩ := (parse_eq_ok_iff_marks bytes).1 marks hwhole hmarks
  exact ⟨hwhole, hmarks, (hread _).2 (by decide +kernel)⟩

end Xml
end PimDav
