import FortranFront.Text.Line

/-!
# `FortranFront.Source.File`: a source text as lines

A source file is a name and the lines of a text. Each line keeps the newline that
ends it, so the lines put together are the text again. The last line has no
newline. It is empty if the text ends with one, and an empty text is one empty
line.

A byte offset into the text lies on one line, at an offset within that line.
-/

set_option autoImplicit false

namespace FortranFront

open Text

/-- The first line of a text and the lines after it. The text is read from its end, so
each character goes to the front of the line that follows it. -/
def splitFirst (text : List Char) : List Char × List (List Char) :=
  text.foldr (fun c (line, later) => if c = '\n' then ([c], line :: later) else (c :: line, later))
    ([], [])

/-- The lines of a text, each with its newline. There is at least one, because a text
without characters is one line without characters. -/
def splitLines (text : List Char) : List (List Char) := (splitFirst text).1 :: (splitFirst text).2

/-- A newline ends the line it stands on. What follows is split as a text of its own. -/
theorem splitLines_cons_newline (text : List Char) :
    splitLines ('\n' :: text) = ['\n'] :: splitLines text := by
  simp [splitLines, splitFirst]

/-- Any other character begins the line that the text after it begins with. -/
theorem splitLines_cons {c : Char} (h : c ≠ '\n') (text : List Char) :
    splitLines (c :: text) = (c :: (splitFirst text).1) :: (splitFirst text).2 := by
  simp [splitLines, splitFirst, h]

/-- The lines put together are the text, so no character is lost or moved in
splitting. -/
theorem flatten_splitLines (text : List Char) : (splitLines text).flatten = text := by
  induction text with
  | nil => rfl
  | cons c rest ih =>
      by_cases h : c = '\n'
      · subst h
        rw [splitLines_cons_newline, List.flatten_cons, ih]
        rfl
      · rw [splitLines_cons h]
        exact congrArg (c :: ·) ih

/-- There is one line more than there are newlines. A location whose lines are within
this number has a label (`Proofs/Ranges`). -/
theorem length_splitLines (text : List Char) :
    (splitLines text).length = text.count '\n' + 1 := by
  induction text with
  | nil => rfl
  | cons c rest ih =>
      by_cases h : c = '\n'
      · subst h
        rw [splitLines_cons_newline, List.length_cons, ih, List.count_cons_self]
      · rw [splitLines_cons h, List.count_cons_of_ne h]
        exact ih

/-- A named text, as its lines. Only the lines that `splitLines` gives come into use,
but nothing here depends on that. -/
structure SourceFile where
  name : String
  lines : List (List Char)

namespace SourceFile

/-- The file of a name and a text. -/
def ofText (name text : String) : SourceFile := ⟨name, splitLines text.toList⟩

/-- How many lines the file has, an empty last one included. A text that ends with a
newline has such a last line. -/
def lineCount (f : SourceFile) : Nat := f.lines.length

/-- A line by its index from zero. Past the end of the file every line is empty, so a
line can be asked for before it is known to be there. -/
def line (f : SourceFile) (index : Nat) : List Char := f.lines.getD index []

end SourceFile

/-- A place in a file, as a line counted from zero and a byte offset within it. Only on
the last line can the offset reach the end of the line. -/
structure Place where
  line : Nat
  offset : Nat
deriving DecidableEq

/-- The place of a byte offset. It is on the last line that starts no later, so the
offset just after a newline lies on the next line. An offset beyond the file is put on
the last line. -/
def placeOf : List (List Char) → Nat → Place
  | line :: next :: rest, offset =>
      if offset < byteSize line then ⟨0, offset⟩
      else
        let place := placeOf (next :: rest) (offset - byteSize line)
        ⟨place.line + 1, place.offset⟩
  | _, offset => ⟨0, offset⟩

end FortranFront
