import FortranFront.Text.Ranges

/-!
# `FortranFront.Text.Blank`: the characters that count as white space

The Unicode property `White_Space`. Besides the blanks of ASCII it has the no-break
space, the spaces of print and the separators of lines and paragraphs, so
`Char.isWhitespace` would not do. `trimEnd` and `indentation` go by it.
-/

set_option autoImplicit false

namespace FortranFront.Text

/-- The code points of the Unicode property `White_Space`. -/
def blankRanges : List (Nat × Nat) :=
  [(0x0009, 0x000D), (0x0020, 0x0020), (0x0085, 0x0085), (0x00A0, 0x00A0), (0x1680, 0x1680),
   (0x2000, 0x200A), (0x2028, 0x2029), (0x202F, 0x202F), (0x205F, 0x205F), (0x3000, 0x3000)]

/-- The character is white space. -/
def isBlank (c : Char) : Bool := inRanges blankRanges c.toNat

end FortranFront.Text
