import FortranFront.Location
import FortranFront.Source.File

/-!
# `FortranFront.Source.Range`: the bytes a location stands for

A location counts lines and columns from one, with both ends included. By its own
account a column is that of a character. `byteRange?` reads it as that of a byte: it
adds the columns to the starts of the lines, which are byte offsets. On a line with
longer characters before the column the range therefore starts too early, and
`Proofs/HeaderColumns` says where it is then shown.

A location has a byte range if the file has both its lines. A column past the end of
a line means the end of that line, column zero means the first, and a range never ends
before it starts.
-/

set_option autoImplicit false

namespace FortranFront

open Text

/-- The bytes from `start` up to and without `stop`. An empty range stands for the place
before a byte. -/
structure ByteRange where
  start : Nat
  stop : Nat
deriving DecidableEq

namespace SourceFile

/-- The bytes of a line of a number, with its newline. Numbers count from one, so there
is no line of number zero. -/
def lineRange? (f : SourceFile) (number : Nat) : Option ByteRange :=
  match number with
  | 0 => none
  | index + 1 => f.lines[index]?.map fun line =>
      let start := byteSize (f.lines.take index).flatten
      ⟨start, start + byteSize line⟩

/-- The bytes of a location, whose columns are taken for columns of bytes. The first column is
included, so it counts one byte less, and the last one is included too, so it counts as it is. -/
def byteRange? (f : SourceFile) (location : Location) : Option ByteRange := do
  let first ← f.lineRange? location.first.line
  let last ← f.lineRange? location.last.line
  let start := min (first.start + (location.first.column - 1)) first.stop
  let stop := max (min (last.start + location.last.column) last.stop) start
  return ⟨start, stop⟩

/-- The number of bytes of the file. It is also the greatest offset that has a place
there. -/
def size (f : SourceFile) : Nat := byteSize f.lines.flatten

/-- The place of a byte offset in the file. -/
def placeOf (f : SourceFile) (offset : Nat) : Place := FortranFront.placeOf f.lines offset

/-- The place of a byte offset, unless the file ends before it. `Report.emit?` asks for
places by it, and that is where a report could fail. -/
def placeOf? (f : SourceFile) (offset : Nat) : Option Place :=
  if offset ≤ f.size then some (f.placeOf offset) else none

end SourceFile

end FortranFront
