/-!
# Letters without case

Names of elements, codings and kinds are compared without regard to the case of
the letters A to Z.  No other letter has two cases here.
-/

namespace PimDav
namespace Text

/-- The text with A to Z written small. -/
def lower (s : String) : String :=
  String.ofList (s.toList.map Char.toLower)

/-- The text with a to z written large. -/
def upper (s : String) : String :=
  String.ofList (s.toList.map Char.toUpper)

/-- Equality up to the case of the letters A to Z. -/
def caseless (s t : String) : Bool :=
  lower s == lower t

@[simp] theorem toList_lower
    (s : String) :
    (lower s).toList = s.toList.map Char.toLower := by
  simp [lower]

@[simp] theorem caseless_self
    (s : String) :
    caseless s s = true := by
  simp [caseless]

end Text
end PimDav
