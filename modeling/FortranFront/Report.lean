import FortranFront.Diagnostic
import FortranFront.Report.Row
import FortranFront.Source.Range

/-!
# `FortranFront.Report`: a diagnostic shown against its source text

A report has a title with the code and the message, then the lines the diagnostic
is about with the place marked on them, then the advice if there is any. Where
the location is not in the file, the title and the advice are all there is.

A report is laid out from the range of bytes of its location. The layout needs to know
where the ends of this range lie. If one lay outside the file, a single line that says
what is wrong and where would stand in for the report.
-/

set_option autoImplicit false

namespace FortranFront.Report

open Text

/-- The part of a file that a report marks, from one place to another. The places count
lines from 0 and bytes within their line. -/
structure Label where
  first : Place
  last : Place
deriving DecidableEq

/-- The label of a location, if the file has its lines. `Proofs.Ranges` shows that this
is the only way in which it can be missing. -/
def label? (f : SourceFile) (location : Location) : Option Label :=
  (f.byteRange? location).map fun range => ⟨f.placeOf range.start, f.placeOf range.stop⟩

/-- How many lines are shown after the first line of a long label. The reports use the
settings the renderer has by default. -/
def leadingLines : Nat := 3

/-- How many lines are shown before the last line of a long label. There are fewer of
them than of `leadingLines`, since a label is read from its start. -/
def trailingLines : Nat := 1

/-- A source line that the bracket runs past. All of it is covered, but the white space
at its end is not shown. -/
def passedRow (f : SourceFile) (index : Nat) : Row :=
  .source (index + 1) .side (trimEnd (f.line index)) .whole

/-- The lines between the ends of a label. Two or more that are neither near the first
nor the last line are left out. A single such line is shown, because the row for an
elision would take as much room. -/
def passedRows (f : SourceFile) (first last : Nat) : List Row :=
  let rows := (List.range' (first + 1) (last - first - 1)).map (passedRow f)
  if rows.length ≤ leadingLines + 1 + trailingLines then rows
  else rows.take leadingLines ++ [.elision] ++ rows.drop (rows.length - trailingLines)

/-- The line a long label starts on. The bracket opens on the line itself if nothing but
white space stands before the label, and below it otherwise, where an arrow leads to the
place. -/
def openingRows (f : SourceFile) (place : Place) : List Row :=
  let line := trimEnd (f.line place.line)
  let coverage := Coverage.since place.offset
  if place.offset ≤ indentation line then [.source (place.line + 1) .opening line coverage]
  else [.source (place.line + 1) .pending line coverage, .opening line place.offset]

/-- The line a long label ends on. The bracket runs past the line and closes on a row of
its own, whatever stands behind the label. -/
def closingRows (f : SourceFile) (place : Place) : List Row :=
  let line := trimEnd (f.line place.line)
  [.source (place.line + 1) .side line (.upTo place.offset), .closing line place.offset]

/-- The one line of a short label. At least one byte is marked, so an empty range still
has a caret where it would start. -/
def shortRows (f : SourceFile) (index start stop : Nat) : List Row :=
  let line := trimEnd (f.line index)
  let stop := max stop (start + 1)
  [.source (index + 1) .absent line (.between start stop), .carets line start stop]

namespace Label

/-- The label reaches over more than one line. Such a label has a bracket, and a short
one has carets. -/
def isLong (l : Label) : Bool := l.first.line ≠ l.last.line

/-- The width of the margin that holds every line number of the label. No row has a
greater number than the later of the two ends. -/
def margin (l : Label) : Nat := (toString (max l.first.line l.last.line + 1)).length

/-- The row that says where the label starts. Its column counts characters, while the
`offset` of the place counts bytes. -/
def locus (f : SourceFile) (l : Label) : Row :=
  .locus f.name (l.first.line + 1) (charsBefore l.first.offset (f.line l.first.line) + 1)

/-- The source lines of the label with their marks. No row comes from outside the lines
of the label. -/
def snippet (f : SourceFile) (l : Label) : List Row :=
  if l.isLong then
    openingRows f l.first ++ passedRows f l.first.line l.last.line ++ closingRows f l.last
  else shortRows f l.first.line l.first.offset l.last.offset

/-- All rows that show a label. An empty border row stands between the place and the
first source line. -/
def rows (f : SourceFile) (l : Label) : List Row :=
  [l.locus f, .border l.isLong] ++ l.snippet f

end Label

/-- The row that gives an advice. Only some defects have one, as `Defect.help?` says. -/
def helpRow (help : String) : Row := .note ("help: " ++ help)

/-- The rows of a report, whose label may be missing. Another border stands between a
label and an advice. The title is always the first row and a blank row is always the
last. -/
def rows (d : Defect) (f : SourceFile) (label? : Option Label) : List Row :=
  let title := Row.title d.code d.message
  match label?, d.help? with
  | none, none => [title, .blank]
  | none, some help => [title, helpRow help, .blank]
  | some label, none => title :: label.rows f ++ [.blank]
  | some label, some help => title :: label.rows f ++ [.border label.isLong, helpRow help, .blank]

/-- The pieces of a report, which all share the margin of its label. Without a label no
line number is shown, and the margin has no width. -/
def layout (d : Defect) (f : SourceFile) (label? : Option Label) : List Piece :=
  (rows d f label?).flatMap (Row.pieces (label?.elim 0 Label.margin))

/-- The report on a diagnostic, with its styles. This is what `emit?` comes to for the
range of a location, as `Emitter.Reliable.emit_byteRange?` shows of every reliable
layout. -/
def pieces (e : Diagnostic) (f : SourceFile) : List Piece :=
  layout e.defect f (label? f e.location)

/-! ### From a range of bytes to a text -/

/-- A way to lay out the report on a defect in a file. The label is a range of bytes if
there is one. It may fail. The type leaves open how the layout is made, so that a result
about the fallback speaks of every layout that fails for bad ranges alone. -/
abbrev Emitter := Defect → SourceFile → Option ByteRange → Option (List Piece)

/-- Lays out a report. This fails if an end of the label has no place in the file, and
in no other case. -/
def emit? : Emitter
  | d, f, none => some (layout d f none)
  | d, f, some range => do
      let first ← f.placeOf? range.start
      let last ← f.placeOf? range.stop
      return layout d f (some ⟨first, last⟩)

/-- What is said in place of a report that cannot be laid out. Nothing of the source
text is in it. -/
def fallback (e : Diagnostic) : String :=
  "error: " ++ e.defect.message ++ " at " ++ toString e.location

/-- The report on a diagnostic, as an emitter lays it out and a writer writes its
pieces. The fallback is not written by the writer, so it never has colours. -/
def render (emit : Emitter) (write : List Piece → List Char) (e : Diagnostic) (f : SourceFile) :
    String :=
  match emit e.defect f (f.byteRange? e.location) with
  | some pieces => String.ofList (write pieces)
  | none => fallback e

/-- The report on a diagnostic as plain text. No piece of it changes a style. -/
def text (e : Diagnostic) (f : SourceFile) : String := render emit? plain e f

/-- The report on a diagnostic for a terminal with colours. It has the pieces of `text`,
written with their styles. -/
def terminalText (e : Diagnostic) (f : SourceFile) : String := render emit? coloured e f

end FortranFront.Report
