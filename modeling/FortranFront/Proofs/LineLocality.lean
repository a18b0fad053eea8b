import FortranFront.Proofs.Emission
import FortranFront.Proofs.LineTexts

/-!
# `FortranFront.Proofs.LineLocality`: a report on one line depends on this line alone

Two texts can differ in every line but one. The bytes of that line then lie at other offsets
in each of them, and their tables of lines have nothing else in common. A report within the
line is still the same for both. It is made from the number of the line, its text and the
columns, and these are what `linePieces` takes.

* `pieces_onLine`: the pieces of a report within the text of one line are those of
  `linePieces`.
* `text_of_same_line`: so the report is the same in every text with this line, both plain
  and with colours.
-/

set_option autoImplicit false

namespace FortranFront

/-- A location with both ends on one line. Its columns may come in any order. -/
theorem Location.eq_onLine {a : Location} {k : Nat} (hfirst : a.first.line = k)
    (hlast : a.last.line = k) : a = .onLine k a.first.column a.last.column := by
  subst hfirst
  show a = ⟨a.first, ⟨a.first.line, a.last.column⟩⟩
  rw [← hlast]

namespace Report

open Text

/-- The rows of the report on some columns of a line, made from the line and its number.
There is no file among the arguments but its name. -/
def lineRows (d : Defect) (name : String) (number first last : Nat) (line : List Char) : List Row :=
  [.title d.code d.message,
    .locus name number (charsBefore (first - 1) line + 1),
    .border false,
    .source number .absent (trimEnd line) (.between (first - 1) (max last (first - 1 + 1))),
    .carets (trimEnd line) (first - 1) (max last (first - 1 + 1))] ++
  adviceRows d ++ [.blank]

/-- The pieces of these rows. No number in their margin is greater than that of the
line. -/
def linePieces (d : Defect) (name : String) (number first last : Nat) (line : List Char) :
    List Piece :=
  (lineRows d name number first last line).flatMap (Row.pieces (toString number).length)

/-- A report within the text of one line is made from this text, whatever else the file
holds. This is `rowsOf_onLine` with the margin put in. On the right stands `linePieces`,
which has no file among its arguments, so two files with the same line give the same
pieces. -/
theorem pieces_onLine {e : Diagnostic} {name source : String} {index first last : Nat}
    (hlocation : e.location = .onLine (index + 1) first last)
    (hindex : index < (SourceFile.ofText name source).lineCount)
    (hfirst : first - 1 ≤ byteSize ((SourceFile.ofText name source).lineText index))
    (hlast : last ≤ byteSize ((SourceFile.ofText name source).lineText index)) :
    pieces e (.ofText name source) =
      linePieces e.defect name (index + 1) first last
        ((SourceFile.ofText name source).lineText index) := by
  rw [pieces_eq_flatMap_rowsOf, rowsOf_onLine hlocation hindex hfirst hlast, hlocation,
    margin_onLine hindex hfirst hlast]
  rfl

/-- Let a location be on one line and within its text. The first column may also be the
one after it, the columns may come in any order and may cut a character. Then the report
on it is the same for every two texts that have the same text on this line.

What `pieces_onLine` makes the report of can be read on this line alone. The bounds on
the columns are in bytes, and without them the label could end on the line below. -/
theorem text_of_same_line {e : Diagnostic} {name source source' : String} {k : Nat}
    (hfirstLine : e.location.first.line = k) (hlastLine : e.location.last.line = k)
    (hk : IsLineOf source k) (hk' : IsLineOf source' k)
    (hsame : (SourceFile.ofText name source).lineText (k - 1) =
      (SourceFile.ofText name source').lineText (k - 1))
    (hfirst : e.location.first.column ≤
      byteSize ((SourceFile.ofText name source).lineText (k - 1)) + 1)
    (hlast : e.location.last.column ≤
      byteSize ((SourceFile.ofText name source).lineText (k - 1))) :
    terminalText e (.ofText name source) = terminalText e (.ofText name source') ∧
      text e (.ofText name source) = text e (.ofText name source') := by
  obtain ⟨index, rfl, hindex⟩ := hk.exists_index name
  obtain ⟨index', hnumber, hindex'⟩ := hk'.exists_index name
  obtain rfl : index = index' := Nat.succ.inj hnumber
  rw [Nat.add_sub_cancel] at hsame hfirst hlast
  have hlocation := Location.eq_onLine hfirstLine hlastLine
  have hstart := Nat.sub_le_of_le_add hfirst
  -- The name, the number, the text and the columns are the same, and there is nothing else to read.
  have hpieces : pieces e (.ofText name source) = pieces e (.ofText name source') := by
    rw [pieces_onLine hlocation hindex hstart hlast, hsame]
    rw [hsame] at hstart hlast
    rw [pieces_onLine hlocation hindex' hstart hlast]
  refine ⟨?_, ?_⟩
  · show render emit? coloured _ _ = render emit? coloured _ _
    rw [render_of_reliable reliable_emit?, render_of_reliable reliable_emit?, hpieces]
  · rw [text_eq_plain, text_eq_plain, hpieces]

/-- A complaint about columns of the second line in the wrong order. The last one cuts a
letter of two bytes, and the first one comes after the line. -/
def cutLetter : Diagnostic := ⟨.invalidIntent "é", .onLine 2 5 3⟩

/-- The line is the last in one text and has another after it in the other, and the
lines before it have different lengths. -/
theorem text_cutLetter :
    terminalText cutLetter (.ofText "bar.f90" "\nx=é") =
        terminalText cutLetter (.ofText "bar.f90" "subroutine bar\nx=é\nend\n") ∧
      text cutLetter (.ofText "bar.f90" "\nx=é") =
        text cutLetter (.ofText "bar.f90" "subroutine bar\nx=é\nend\n") :=
  text_of_same_line (k := 2) rfl rfl (by decide) (by decide) (by decide) (by decide) (by decide)

end Report

end FortranFront
