import FortranFront.Report.Markup

/-!
# `FortranFront.Proofs.ColourCodes`: colours that can be taken out again

A terminal reads a change of style as a sequence of characters that begins with an escape.
Such sequences can be taken out of any text. Every change that a report writes is made of
them, so what is left of its pieces is what they add to plain text, as long as this has no
escapes of its own.

* `withoutColours`: a text without its colour sequences.
* `withoutColours_coloured`: pieces written with colours and without differ only in these
  sequences.
-/

set_option autoImplicit false

namespace FortranFront.Report

/-- The characters that the parameters of a colour sequence are written in. -/
def isParameter (c : Char) : Bool := c.isDigit || c = ';'

/-- What follows the colour sequence that a text begins with, if it does. A sequence is
an escape, a bracket, digits and semicolons, and the letter `m`. There may be no digits
at all. -/
def afterColour? : List Char → Option (List Char)
  | '\x1b' :: '[' :: rest =>
      match rest.dropWhile isParameter with
      | 'm' :: later => some later
      | _ => none
  | _ => none

/-- A colour sequence takes some characters, so taking sequences out comes to an end.
What is left of the text stands behind the parameters, and in front of these are an
escape and a bracket. -/
theorem length_lt_of_afterColour? {text later : List Char} (h : afterColour? text = some later) :
    later.length < text.length := by
  unfold afterColour? at h
  split at h
  · rename_i rest
    -- Dropping parameters makes nothing longer.
    have hdrop : (rest.dropWhile isParameter).length ≤ rest.length :=
      (List.dropWhile_suffix isParameter).length_le
    split at h
    · rename_i hrest
      cases h
      rw [hrest, List.length_cons] at hdrop
      simp only [List.length_cons]
      omega
    · cases h
  · cases h

/-- A text without its colour sequences, which are looked for from its start. It knows
nothing of styles, and takes out sequences that no report would write too. -/
def withoutColours : List Char → List Char
  | [] => []
  | c :: rest =>
      match h : afterColour? (c :: rest) with
      | some later =>
          have := length_lt_of_afterColour? h
          withoutColours later
      | none => c :: withoutColours rest
termination_by text => text.length
decreasing_by
  · assumption
  · exact Nat.lt_succ_self rest.length

/-! ### Sequences -/

/-- Colour sequences one after the other, and nothing between them. -/
inductive ColourCodes : List Char → Prop
  | nil : ColourCodes []
  | cons (parameters : List Char) {rest : List Char} (hparameters : parameters.all isParameter)
      (hrest : ColourCodes rest) : ColourCodes ('\x1b' :: '[' :: (parameters ++ 'm' :: rest))

/-- The parameters of a sequence end with its letter, as that is no parameter itself. -/
theorem afterColour?_sequence {parameters : List Char} (h : parameters.all isParameter)
    (later : List Char) :
    afterColour? ('\x1b' :: '[' :: (parameters ++ 'm' :: later)) = some later := by
  have hdrop : (parameters ++ 'm' :: later).dropWhile isParameter = 'm' :: later := by
    rw [List.dropWhile_append_of_pos (List.all_eq_true.mp h)]
    rfl
  simp only [afterColour?, hdrop]

/-- Sequences before a text are taken out. The induction is on the sequences, each of
which stands before the rest and the text. As many changes of style as a report likes to
make in a row are gone after this. -/
theorem ColourCodes.withoutColours_append {codes : List Char} (h : ColourCodes codes)
    (text : List Char) : withoutColours (codes ++ text) = withoutColours text := by
  induction h with
  | nil => rfl
  | @cons parameters rest hparameters _ ih =>
      -- The first sequence is found by its letter, and the others stand before the text then.
      have hafter := afterColour?_sequence hparameters (rest ++ text)
      rw [List.cons_append, List.cons_append, List.append_assoc, List.cons_append, withoutColours]
      split
      · rename_i later hlater
        obtain rfl : rest ++ text = later := Option.some.inj (hafter.symm.trans hlater)
        exact ih
      · rename_i hnone
        cases hafter.symm.trans hnone

/-- No sequence begins with a character other than an escape, so such a character is
kept. The escape itself may be kept too, if what follows it is no sequence. -/
theorem withoutColours_cons {c : Char} (h : c ≠ '\x1b') (text : List Char) :
    withoutColours (c :: text) = c :: withoutColours text := by
  -- Nothing is found at this character, so it is passed on.
  have hafter : afterColour? (c :: text) = none := by
    unfold afterColour?
    split
    · rename_i heq
      cases heq
      exact absurd rfl h
    · rfl
  rw [withoutColours]
  split
  · rename_i hsome
    cases hafter.symm.trans hsome
  · rfl

/-- Text without escapes stays as it is, whatever comes after it. -/
theorem withoutColours_append {content : List Char} (h : '\x1b' ∉ content) (text : List Char) :
    withoutColours (content ++ text) = content ++ withoutColours text := by
  induction content with
  | nil => rfl
  | cons c content ih =>
      rw [List.mem_cons, not_or] at h
      rw [List.cons_append, withoutColours_cons (Ne.symm h.1), ih h.2]
      rfl

-- An escape that begins no sequence stays as well.
example : withoutColours "\x1b[0;1mend\x1b[0m \x1b[1".toList = "end \x1b[1".toList := by cbv

/-! ### Pieces -/

/-- The end of a style is one sequence. -/
theorem colourCodes_resetCode : ColourCodes resetCode := .cons ['0'] rfl .nil

/-- A change to a style ends the one before, so it is several sequences. -/
theorem Style.colourCodes_code (style : Style) : ColourCodes style.code := by
  cases style with
  | severity => exact .cons ['0'] rfl (.cons ['1'] rfl (.cons "38;5;9".toList rfl .nil))
  | message => exact .cons ['0'] rfl (.cons ['1'] rfl .nil)
  | frame => exact .cons ['0'] rfl (.cons ['3', '4'] rfl .nil)
  | label => exact .cons ['0'] rfl (.cons ['3', '1'] rfl .nil)

/-- A piece is left as it is written without colours. Its text must have no escape,
since it could begin a sequence then. -/
theorem Piece.withoutColours_append {piece : Piece} (h : '\x1b' ∉ piece.plain) (text : List Char) :
    withoutColours (piece.coloured ++ text) = piece.plain ++ withoutColours text := by
  cases piece with
  | text content => exact Report.withoutColours_append h text
  | switch style => exact style.colourCodes_code.withoutColours_append text
  | reset => exact colourCodes_resetCode.withoutColours_append text

/-- Pieces written with colours are the plain text again without the colour sequences.
The induction is on the pieces, from the first on. The hypothesis is needed because an
escape in the text itself could begin a sequence that no style has written. -/
theorem withoutColours_coloured {pieces : List Piece} (h : '\x1b' ∉ plain pieces) :
    withoutColours (coloured pieces) = plain pieces := by
  induction pieces with
  | nil => rw [coloured, plain, List.flatMap_nil, List.flatMap_nil, withoutColours]
  | cons piece rest ih =>
      have hsplit : plain (piece :: rest) = piece.plain ++ plain rest := List.flatMap_cons
      rw [hsplit, List.mem_append, not_or] at h
      rw [hsplit, ← ih h.2, ← Piece.withoutColours_append h.1]
      rfl

end FortranFront.Report
