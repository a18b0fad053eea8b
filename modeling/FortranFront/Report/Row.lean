import FortranFront.Report.Markup
import FortranFront.Text.Line

/-!
# `FortranFront.Report.Row`: the rows of a report

A report is a list of rows: a title, the place of the label, numbered source lines
with marks under them, and a note. All rows of a report but the title share a left
margin as wide as the greatest line number, and a border stands after it.

A label within one line is shown by carets under the text. A label over several
lines is shown by a bracket between the border and the text. The bracket opens and
closes either on a source line or on a row of its own.
-/

set_option autoImplicit false

namespace FortranFront.Report

open Text

/-- The part of a source line that the label covers. A long label covers the end of its
first line, all of the lines between and the start of its last line. -/
inductive Coverage where
  /-- The bytes from one offset up to another. -/
  | between (start stop : Nat)
  /-- The characters from a byte offset on. -/
  | since (start : Nat)
  /-- The whole line. -/
  | whole
  /-- The characters up to a byte offset. -/
  | upTo (stop : Nat)
deriving DecidableEq

/-- The label covers the character, or some of its bytes where it starts and ends on one
line. An end of a long label covers a character only as a whole. -/
def Coverage.covers : Coverage → Cell → Bool
  | .between start stop, c => max start c.start < min stop c.stop
  | .since start, c => start ≤ c.start
  | .whole, _ => true
  | .upTo stop, c => c.stop ≤ stop

/-- The part of the bracket that stands before a source line. A report with no long
label has `absent` on all its lines, and no room is left for a bracket then. -/
inductive Bracket where
  /-- There is no bracket in the report. -/
  | absent
  /-- The bracket begins below this line. -/
  | pending
  | opening
  | side
deriving DecidableEq

/-- One row of a report. A row carries all that is written in it but the margin, which
is the same for the whole report, so the rows of a label do not depend on the rest. -/
inductive Row where
  | title (code message : String)
  | locus (file : String) (line column : Nat)
  /-- The border alone. The flag leaves room for a bracket. -/
  | border (bracketed : Bool)
  | source (number : Nat) (bracket : Bracket) (line : List Char) (coverage : Coverage)
  /-- Carets below the bytes from one offset up to another. -/
  | carets (line : List Char) (start stop : Nat)
  /-- The bracket begins, and points at the character of a byte offset. -/
  | opening (line : List Char) (start : Nat)
  /-- The bracket ends, and points before a byte offset. -/
  | closing (line : List Char) (stop : Nat)
  /-- Some source lines are left out here. -/
  | elision
  | note (text : String)
  | blank
deriving DecidableEq

/-- The pieces of a border sign after an empty margin. One more blank stands between the
margin and the sign, as it does after a line number. -/
def margined (margin : Nat) (sign : String) : List Piece :=
  .text (List.replicate (margin + 1) ' ') :: styled .frame sign.toList

/-- The bracket before a source line. It takes two columns, which are blank as long as
the bracket is `pending`. -/
def Bracket.pieces : Bracket → List Piece
  | .absent => []
  | .pending => [.text "  ".toList]
  | .opening => .text " ".toList :: styled .label "╭".toList
  | .side => .text " ".toList :: styled .label "│".toList

/-- The carets under a line. Blanks lead up to the last caret and nothing follows it.
The `endCell` is there for a label that reaches past the text, which has one caret
behind it. -/
def caretPieces (line : List Char) (start stop : Nat) : List Piece :=
  let covered := (Coverage.between start stop).covers
  paint covered
    (fun c =>
      if covered c then List.replicate c.width '^'
      else if c.start < stop then List.replicate c.width ' '
      else [])
    (cells line ++ [endCell line])

/-- An arrow under a line that runs below every character starting before a byte offset.
It is as long as these characters are wide, and its head comes after them. -/
def arrow (line : List Char) (stop : Nat) : List Char :=
  (((cells line).takeWhile fun c => c.start < stop).flatMap fun c =>
    List.replicate c.width '─') ++ ['^']

/-- A number with blanks before it, as wide as the margin. A number with more digits
than that is not cut, but `Label.margin` leaves room for all of them. -/
def alignRight (margin number : Nat) : List Char :=
  let digits := (toString number).toList
  List.replicate (margin - digits.length) ' ' ++ digits

/-- A row in a report whose greatest line number has `margin` digits. Each row but the
title starts with the margin and a sign and ends with one line feed, so the rows of a
report are the lines of its text. -/
def Row.pieces (margin : Nat) : Row → List Piece
  | .title code message =>
      [.switch .severity, .text ("error[" ++ code ++ "]").toList, .switch .message,
       .text (": " ++ message).toList, .reset, .text ['\n']]
  | .locus file line column =>
      margined margin "┌─" ++
        [.text (" " ++ file ++ ":" ++ toString line ++ ":" ++ toString column ++ "\n").toList]
  | .border bracketed =>
      margined margin "│" ++ [.text (if bracketed then "  \n" else "\n").toList]
  | .source number bracket line coverage =>
      styled .frame (alignRight margin number) ++ [.text [' ']] ++ styled .frame ['│'] ++
        bracket.pieces ++ [.text [' ']] ++ paint coverage.covers Cell.glyphs (cells line) ++
        [.text ['\n']]
  | .carets line start stop =>
      margined margin "│" ++ [.text [' ']] ++ caretPieces line start stop ++ [.text ['\n']]
  | .opening line start =>
      margined margin "│" ++ [.text [' ']] ++ styled .label ['╭'] ++
        styled .label (arrow line (start + 1)) ++ [.text ['\n']]
  -- Both ends of the bracket are drawn alike, but this arrow stops before its offset.
  | .closing line stop =>
      margined margin "│" ++ [.text [' ']] ++ styled .label ['╰'] ++
        styled .label (arrow line stop) ++ [.text ['\n']]
  | .elision => margined margin "·" ++ [.text [' ']] ++ styled .label ['│'] ++ [.text ['\n']]
  | .note text => margined margin "=" ++ [.text (" " ++ text ++ "\n").toList]
  | .blank => [.text ['\n']]

end FortranFront.Report
