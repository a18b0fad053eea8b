import FortranFront.Proofs.Emission
import FortranFront.Proofs.LineTexts

/-!
# `FortranFront.Proofs.RowTexts`: the plain text of the rows of a report

Without its styles a report is the texts of its rows one after the other, and each row
that has no marks is its parts between a margin and a newline. Marked items are written
as they are, so painting them adds nothing.

* `text_eq_rowsText`: the plain text of a report, row by row.
* `plain_paint`: painted items are their glyphs.
* `text_title` and its siblings: the texts of rows.
-/

set_option autoImplicit false

namespace FortranFront.Report

open Text

/-- So many blanks. -/
def blanks (count : Nat) : String := String.ofList (List.replicate count ' ')

/-- The plain text of a row, in a report with some margin. -/
def Row.text (margin : Nat) (row : Row) : String := String.ofList (plain (row.pieces margin))

/-- The plain text of rows one after the other, in a report with some margin. -/
def rowsText (margin : Nat) (rows : List Row) : String :=
  String.ofList (plain (rows.flatMap (Row.pieces margin)))

/-- The plain text of a report is that of its rows. What a report prints can then be
read off its rows one by one. -/
theorem text_eq_rowsText (e : Diagnostic) (f : SourceFile) :
    text e f = rowsText ((label? f e.location).elim 0 Label.margin) (rowsOf e f) := by
  rw [text_eq_plain, pieces_eq_flatMap_rowsOf]
  rfl

/-- The report on a location within the text of one line has a margin as wide as the
number of the line. -/
theorem text_onLine {e : Diagnostic} {name source : String} {index first last : Nat}
    (hlocation : e.location = .onLine (index + 1) first last)
    (hindex : index < (SourceFile.ofText name source).lineCount)
    (hfirst : first - 1 ≤ byteSize ((SourceFile.ofText name source).lineText index))
    (hlast : last ≤ byteSize ((SourceFile.ofText name source).lineText index)) :
    text e (.ofText name source) =
      rowsText (toString (index + 1)).length (rowsOf e (.ofText name source)) := by
  rw [text_eq_rowsText, hlocation, margin_onLine hindex hfirst hlast]

/-! ### Pieces one after the other -/

/-- No pieces are no text. -/
@[simp] theorem plain_nil : plain [] = [] := rfl

/-- The text of a piece stands before that of the others. -/
@[simp] theorem plain_cons (piece : Piece) (rest : List Piece) :
    plain (piece :: rest) = piece.plain ++ plain rest := rfl

/-- The texts of pieces stand in a row as the pieces do. -/
@[simp] theorem plain_append (pieces later : List Piece) :
    plain (pieces ++ later) = plain pieces ++ plain later := List.flatMap_append

/-- A style adds nothing to the text it is put on. -/
@[simp] theorem plain_styled (style : Style) (content : List Char) :
    plain (styled style content) = content := by
  simp [styled, Piece.plain]

/-- No rows are no text. -/
@[simp] theorem rowsText_nil (margin : Nat) : rowsText margin [] = "" := rfl

/-- The text of a row stands before that of the others. -/
@[simp] theorem rowsText_cons (margin : Nat) (row : Row) (rows : List Row) :
    rowsText margin (row :: rows) = row.text margin ++ rowsText margin rows := by
  simp [rowsText, Row.text]

/-! ### Painted items -/

/-- Painting adds nothing to the plain text, whether the style is on at the start or
not. The induction is on the items for both. -/
theorem plain_paintFrom {α : Type} (marked : α → Bool) (glyphs : α → List Char) (on : Bool)
    (items : List α) : plain (paintFrom marked glyphs on items) = items.flatMap glyphs := by
  induction items generalizing on with
  | nil => cases on <;> rfl
  | cons a rest ih =>
      cases on <;> cases hmarked : marked a <;>
        simp [paintFrom, hmarked, Piece.plain, ih]

/-- Painted items are their glyphs, one after the other. A style may begin and end
anywhere among them, and the plain text does not show where. -/
theorem plain_paint {α : Type} (marked : α → Bool) (glyphs : α → List Char) (items : List α) :
    plain (paint marked glyphs items) = items.flatMap glyphs :=
  plain_paintFrom marked glyphs false items

/-! ### Rows -/

variable (margin : Nat)

/-- A title is the code and the message. It has no margin. -/
theorem text_title (code message : String) :
    Row.text margin (.title code message) = "error[" ++ code ++ "]: " ++ message ++ "\n" := by
  apply String.toList_inj.mp
  simp [Row.text, Row.pieces, Piece.plain]

/-- The place of a label is a file, a line and a column. -/
theorem text_locus (file : String) (line column : Nat) :
    Row.text margin (.locus file line column) =
      blanks (margin + 1) ++ "┌─ " ++ file ++ ":" ++ toString line ++ ":" ++ toString column ++
        "\n" := by
  apply String.toList_inj.mp
  simp [Row.text, Row.pieces, margined, Piece.plain, blanks]

/-- A report on a label begins with its title and the place of the label, whatever comes
below. -/
theorem rowsText_header (code message file : String) (line column : Nat) (later : List Row) :
    rowsText margin (.title code message :: .locus file line column :: later) =
      "error[" ++ code ++ "]: " ++ message ++ "\n" ++
      blanks (margin + 1) ++ "┌─ " ++ file ++ ":" ++ toString line ++ ":" ++ toString column ++
        "\n" ++
      rowsText margin later := by
  rw [rowsText_cons, rowsText_cons, text_title, text_locus]
  simp only [String.append_assoc]

/-- Where nothing else is to be seen there is the border alone, with room for a bracket
if there is one in the report. -/
theorem text_border (bracketed : Bool) :
    Row.text margin (.border bracketed) =
      blanks (margin + 1) ++ if bracketed then "│  \n" else "│\n" := by
  apply String.toList_inj.mp
  cases bracketed <;> simp [Row.text, Row.pieces, margined, Piece.plain, blanks]

/-- What stands between the border and a source line. It is two columns wide if the
report has a bracket. -/
def Bracket.text (bracket : Bracket) : String := String.ofList (plain bracket.pieces)

/-- A source line is its number, its part of the bracket and what is written for its
characters. What the label covers makes no difference, since it is told by a style
only. -/
theorem text_source (number : Nat) (bracket : Bracket) (line : List Char) (coverage : Coverage) :
    Row.text margin (.source number bracket line coverage) =
      String.ofList (alignRight margin number) ++ " │" ++ bracket.text ++ " " ++
        String.ofList ((cells line).flatMap Cell.glyphs) ++ "\n" := by
  apply String.toList_inj.mp
  simp [Row.text, Row.pieces, Bracket.text, Piece.plain, plain_paint]

/-- Carets stand below the line, behind a margin without a number. -/
theorem text_carets (line : List Char) (start stop : Nat) :
    Row.text margin (.carets line start stop) =
      blanks (margin + 1) ++ "│ " ++ String.ofList (plain (caretPieces line start stop)) ++ "\n" := by
  apply String.toList_inj.mp
  simp [Row.text, Row.pieces, margined, Piece.plain, blanks]

/-- Advice is told from the rest by its first word. -/
theorem text_help (help : String) :
    Row.text margin (helpRow help) = blanks (margin + 1) ++ "= help: " ++ help ++ "\n" := by
  apply String.toList_inj.mp
  simp [Row.text, Row.pieces, helpRow, margined, Piece.plain, blanks]

/-- A blank row is a newline. -/
theorem text_blank : Row.text margin .blank = "\n" := by
  apply String.toList_inj.mp
  simp [Row.text, Row.pieces, Piece.plain]

end FortranFront.Report
