/-!
# Ranges of character codes

A property of characters is given by the ranges of codes that have it.
-/

set_option autoImplicit false

namespace EmuScript.Text

/-- Ranges of codes, both ends included, in ascending order. -/
abbrev CodeRanges : Type :=
  List (Nat × Nat)

/-- Whether the code of a character lies in one of the ranges. -/
def CodeRanges.contains (ranges : CodeRanges) (char : Char) : Bool :=
  ranges.any fun (low, high) => low ≤ char.toNat && char.toNat ≤ high

end EmuScript.Text
