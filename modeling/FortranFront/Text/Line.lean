import FortranFront.Text.Blank
import FortranFront.Text.Width

/-!
# `FortranFront.Text.Line`: bytes and columns of a line

A line of text is measured in two ways. Its bytes are those of the UTF-8 form, and
the range of a location is a range of them. Its columns are what it takes on a
terminal, and the marks under a line follow them. `cells` gives every character of a
line with both. A tab reaches to the next tab stop, so its width depends on the columns
before it.
-/

set_option autoImplicit false

namespace FortranFront.Text

/-- The number of bytes of a text in its UTF-8 form. It is defined on lists of
characters, where it can be unfolded along the text. -/
def byteSize : List Char → Nat
  | [] => 0
  | c :: rest => c.utf8Size + byteSize rest

@[simp] theorem byteSize_append (a b : List Char) :
    byteSize (a ++ b) = byteSize a + byteSize b := by
  induction a with
  | nil => simp [byteSize]
  | cons c rest ih => simp [byteSize, ih, Nat.add_assoc]

/-- A character of a line, with the byte it starts at and the columns it takes. The
bytes say whether a label covers it, and the columns how wide its mark is. -/
structure Cell where
  char : Char
  start : Nat
  width : Nat
deriving DecidableEq

namespace Cell

/-- The byte after the last one of a character. -/
def stop (c : Cell) : Nat := c.start + c.char.utf8Size

/-- What is written for a character. A tab is written as blanks, so that the text stays
above its marks wherever the line starts on the terminal. -/
def glyphs (c : Cell) : List Char := if c.char = '\t' then List.replicate c.width ' ' else [c.char]

end Cell

/-- Tab stops stand at every fourth column. -/
def tabStop : Nat := 4

/-- The number of columns a character takes at a column of its line. Only for a tab does
the column matter. -/
def widthAt (column : Nat) (c : Char) : Nat :=
  if c = '\t' then tabStop - column % tabStop else width c

/-- The characters of a text that begins at a byte and a column of its line. Both are
carried along, as the place of a character depends on all before it. -/
def cellsFrom (start column : Nat) : List Char → List Cell
  | [] => []
  | c :: rest =>
      ⟨c, start, widthAt column c⟩ ::
        cellsFrom (start + c.utf8Size) (column + widthAt column c) rest

/-- The characters of a whole line. -/
def cells (line : List Char) : List Cell := cellsFrom 0 0 line

/-- The place after the last character of a line, where a mark may still stand. It is
one column wide, so an empty label at the end of a line has its caret there. -/
def endCell (line : List Char) : Cell := ⟨'\x00', byteSize line, 1⟩

/-- The character belongs to the end of a line and is not shown. -/
def isLineEnd (c : Char) : Bool := c = '\n' || c = '\r' || c = '\x00'

/-- A line without the line end characters at its end. There may be several of them,
such as a carriage return before a newline. -/
def trimEnd (line : List Char) : List Char := (line.reverse.dropWhile isLineEnd).reverse

/-- The number of bytes of the white space that a line begins with. A label over several
lines that starts no later opens its bracket on the line itself. -/
def indentation (line : List Char) : Nat := byteSize (line.takeWhile isBlank)

/-- How many characters of a line end at a byte or before it. This turns a byte of a
line into the column that a report names. -/
def charsBefore (byte : Nat) (line : List Char) : Nat :=
  ((cells line).filter fun c => c.stop ≤ byte).length

end FortranFront.Text
