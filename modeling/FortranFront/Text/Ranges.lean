/-!
# `FortranFront.Text.Ranges`: sets of characters as ranges of code points

A property of characters that no formula gives is a list of ranges, each with its
first and its last code point.
-/

set_option autoImplicit false

namespace FortranFront.Text

/-- The code point lies in one of the ranges, whose ends are included. All ranges are
searched, which is fast enough for tables of some hundred entries. -/
def inRanges (ranges : List (Nat × Nat)) (code : Nat) : Bool :=
  ranges.any fun (first, last) => first ≤ code && code ≤ last

end FortranFront.Text
