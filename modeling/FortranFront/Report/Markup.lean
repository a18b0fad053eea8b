/-!
# `FortranFront.Report.Markup`: text with changes of style

A report is a list of pieces: some text, a change to a style, or the end of a
style. `plain` keeps the text alone. `coloured` writes each change as the escape
sequence a terminal understands.
-/

set_option autoImplicit false

namespace FortranFront.Report

/-- The roles that parts of a report play. A role is fixed for each part of each row, so
`Style.code` is the only place that knows of colours. -/
inductive Style where
  /-- The severity and the code of a diagnostic. -/
  | severity
  /-- The message of a diagnostic. -/
  | message
  /-- The frame: borders, line numbers and the bullet of a note. -/
  | frame
  /-- What the label covers, and the marks that show it. -/
  | label
deriving DecidableEq

/-- The sequence that ends every style. It stands before each change of style too, so no
style is ever laid over another. -/
def resetCode : List Char := "\x1b[0m".toList

/-- The sequence that changes to a style, whatever was on before. It starts with
`resetCode` for that reason. -/
def Style.code : Style → List Char
  | .severity => resetCode ++ "\x1b[1m\x1b[38;5;9m".toList
  | .message => resetCode ++ "\x1b[1m".toList
  | .frame => resetCode ++ "\x1b[34m".toList
  | .label => resetCode ++ "\x1b[31m".toList

/-- A part of a report. The rows produce pieces rather than text so that the plain and
the coloured report are two writings of one layout. -/
inductive Piece where
  | text (content : List Char)
  | switch (style : Style)
  | reset
deriving DecidableEq

namespace Piece

/-- What a piece adds to plain text. Only its text is there. -/
def plain : Piece → List Char
  | .text content => content
  | .switch _ => []
  | .reset => []

/-- What a piece adds to text with colours. A change of style becomes its escape
sequence, and text is written as it stands, escape characters in it included. -/
def coloured : Piece → List Char
  | .text content => content
  | .switch style => style.code
  | .reset => resetCode

end Piece

/-- The text of a report without styles, piece by piece. -/
def plain (pieces : List Piece) : List Char := pieces.flatMap Piece.plain

/-- The text of a report with styles as escape sequences. What is left when the
sequences are taken out again is shown in `Proofs.ColourCodes`. -/
def coloured (pieces : List Piece) : List Char := pieces.flatMap Piece.coloured

/-- A text in one style, which ends with it. The borders and the line numbers are
written so. -/
def styled (style : Style) (content : List Char) : List Piece :=
  [.switch style, .text content, .reset]

/-- Writes items of which some are marked. A run of marked items is in the label style,
which is on at the start if `on` is true. It ends with the run, or at the end of the
items. The flag is all the state there is, so lemmas about a painted line go by
induction on the items for both flags at once. -/
def paintFrom {α : Type} (marked : α → Bool) (glyphs : α → List Char) :
    (on : Bool) → List α → List Piece
  -- The run goes up to the last item, so it is ended here.
  | true, [] => [.reset]
  | false, [] => []
  | true, a :: rest =>
      if marked a then .text (glyphs a) :: paintFrom marked glyphs true rest
      else .reset :: .text (glyphs a) :: paintFrom marked glyphs false rest
  | false, a :: rest =>
      if marked a then .switch .label :: .text (glyphs a) :: paintFrom marked glyphs true rest
      else .text (glyphs a) :: paintFrom marked glyphs false rest

/-- Writes items with every run of marked ones in the label style. The style is off
before the first item and after the last. -/
def paint {α : Type} (marked : α → Bool) (glyphs : α → List Char) (items : List α) : List Piece :=
  paintFrom marked glyphs false items

end FortranFront.Report
