import FortranFront.Proofs.CharCounts
import FortranFront.Proofs.Ranges
import FortranFront.Proofs.ReportLines

/-!
# `FortranFront.Proofs.LineTexts`: reports on one line of a text

The text of a line is what stands on it before its newline. A location that stays within
the text of one line has a label on this line, at the same columns: only the newline lies
between the byte after the text and the next line.

* `SourceFile.line_ofText`: a line of a text is its text with a newline, which the last one lacks.
* `Report.label?_onLine`: the label of a location within the text of one line.
* `Report.rowsOf_onLine`: the rows of the report on it.
-/

set_option autoImplicit false

namespace FortranFront

open Text

namespace SourceFile

/-- The text of a line, which goes up to its newline. The statements about one line are
about this. -/
def lineText (f : SourceFile) (index : Nat) : List Char := (f.line index).takeWhile (· ≠ '\n')

/-- Among the lines of a text only the last one lacks a newline, and no other has more
than that at its end. The induction is on the text, and its first character belongs to
the first line in any case. -/
theorem getD_splitLines (text : List Char) (index : Nat) :
    (splitLines text).getD index [] =
      ((splitLines text).getD index []).takeWhile (· ≠ '\n') ++
        if index + 1 < (splitLines text).length then ['\n'] else [] := by
  induction text generalizing index with
  | nil =>
      cases index with
      | zero => rfl
      | succ index => rfl
  | cons c rest ih =>
      by_cases hc : c = '\n'
      · subst hc
        -- A newline is a line of its own here, and the rest of the text starts a new one.
        rw [splitLines_cons_newline]
        cases index with
        | zero => simp [splitLines]
        | succ index => simpa using ih index
      · rw [splitLines_cons hc]
        cases index with
        | zero => simpa [splitLines, hc] using ih 0
        | succ index => simpa [splitLines] using ih (index + 1)

/-- A line of a text is its text with a newline, unless it is the last. Beyond the last
line both are empty. What a report shows of a line and where it counts columns are both
taken from the text, so the newline has to be told from it. -/
theorem line_ofText (name text : String) (index : Nat) :
    (ofText name text).line index = (ofText name text).lineText index ++
      if index + 1 < (ofText name text).lineCount then ['\n'] else [] :=
  getD_splitLines text.toList index

/-- The newline of a line is not shown, so what is shown of a line depends on its text
alone. -/
theorem trimEnd_line (name source : String) (index : Nat) :
    trimEnd ((ofText name source).line index) = trimEnd ((ofText name source).lineText index) := by
  rw [line_ofText]
  split
  · exact trimEnd_append_newline _
  · rw [List.append_nil]

variable {name source : String} {index : Nat}

/-- The newline of a line does not count before a byte of its text. -/
theorem charsBefore_line {k : Nat} (hk : k ≤ byteSize ((ofText name source).lineText index)) :
    charsBefore k ((ofText name source).line index) =
      charsBefore k ((ofText name source).lineText index) := by
  rw [line_ofText]
  exact charsBefore_append hk _

/-- An offset into the text of a line, the end of the text included, lies within the
line or the line is the last one. The newline is what makes the end of the text a place
of the line. -/
theorem within_of_le_lineText {k : Nat} (hindex : index < (ofText name source).lineCount)
    (hk : k ≤ byteSize ((ofText name source).lineText index)) :
    k ≤ (ofText name source).lineSize index ∧
      (k < (ofText name source).lineSize index ∨ index + 1 = (ofText name source).lineCount) := by
  rw [lineSize, line_ofText, byteSize_append]
  by_cases hnext : index + 1 < (ofText name source).lineCount
  · rw [if_pos hnext]
    have hnewline : byteSize ['\n'] = 1 := rfl
    omega
  · omega

/-- Such an offset is a place of the line. It is not the start of the next one, as it
comes before the newline. -/
theorem placeOf_lineText {k : Nat} (hindex : index < (ofText name source).lineCount)
    (hk : k ≤ byteSize ((ofText name source).lineText index)) :
    (ofText name source).placeOf ((ofText name source).lineStart index + k) = ⟨index, k⟩ :=
  placeOf_lineStart_add_of_within hindex (within_of_le_lineText hindex hk).2

end SourceFile

namespace Report

variable {name source : String} {index first last : Nat}

/-- The label of a location within the text of one line lies on this line, from the byte
of its first column to the byte after its last, and is empty if the last column comes
before the first. The first column may also be the one after the text. The bounds keep
the label on the line, where a greater column would put its end on the next one. -/
theorem label?_onLine (hindex : index < (SourceFile.ofText name source).lineCount)
    (hfirst : first - 1 ≤ byteSize ((SourceFile.ofText name source).lineText index))
    (hlast : last ≤ byteSize ((SourceFile.ofText name source).lineText index)) :
    label? (.ofText name source) (.onLine (index + 1) first last) =
      some ⟨⟨index, first - 1⟩, ⟨index, max last (first - 1)⟩⟩ := by
  have hstart := SourceFile.placeOf_lineText hindex hfirst
  have hstop := SourceFile.placeOf_lineText hindex (Nat.max_le.mpr ⟨hlast, hfirst⟩)
  have hfirstSize := (SourceFile.within_of_le_lineText hindex hfirst).1
  have hlastSize := (SourceFile.within_of_le_lineText hindex hlast).1
  generalize SourceFile.ofText name source = f at *
  -- No bound cuts anything off, as both columns lie within the line.
  have hrange : f.byteRange? (.onLine (index + 1) first last) =
      some ⟨f.lineStart index + (first - 1), f.lineStart index + max last (first - 1)⟩ := by
    simp only [SourceFile.byteRange?, Location.onLine, SourceFile.lineRange?_succ hindex,
      Option.bind_eq_bind, Option.bind_some, Option.pure_def, Nat.add_min_add_left,
      Nat.min_eq_left hfirstSize, Nat.min_eq_left hlastSize, Nat.add_max_add_left]
  rw [label?, hrange, Option.map_some, hstart, hstop]

/-- The margin of the report on such a location is as wide as the number of the line. -/
theorem margin_onLine (hindex : index < (SourceFile.ofText name source).lineCount)
    (hfirst : first - 1 ≤ byteSize ((SourceFile.ofText name source).lineText index))
    (hlast : last ≤ byteSize ((SourceFile.ofText name source).lineText index)) :
    (label? (.ofText name source) (.onLine (index + 1) first last)).elim 0 Label.margin =
      (toString (index + 1)).length := by
  rw [label?_onLine hindex hfirst hlast, Option.elim_some, Label.margin, Nat.max_self]

/-- The rows of the advice below a label within one line, with the border that stands
before it. -/
def adviceRows (d : Defect) : List Row :=
  match d.help? with
  | none => []
  | some help => [.border false, helpRow help]

/-- The report on a location within the text of one line. It has a title, the place of
the label, the line, and the marks below it, which cover at least one byte. Nothing but
the text of the line is read of the file. `HeaderColumns`, `LineLocality` and
`Underlines` are about these rows. -/
theorem rowsOf_onLine {e : Diagnostic} (hlocation : e.location = .onLine (index + 1) first last)
    (hindex : index < (SourceFile.ofText name source).lineCount)
    (hfirst : first - 1 ≤ byteSize ((SourceFile.ofText name source).lineText index))
    (hlast : last ≤ byteSize ((SourceFile.ofText name source).lineText index)) :
    rowsOf e (.ofText name source) =
      [.title e.defect.code e.defect.message,
        .locus name (index + 1)
          (charsBefore (first - 1) ((SourceFile.ofText name source).lineText index) + 1),
        .border false,
        .source (index + 1) .absent (trimEnd ((SourceFile.ofText name source).lineText index))
          (.between (first - 1) (max last (first - 1 + 1))),
        .carets (trimEnd ((SourceFile.ofText name source).lineText index)) (first - 1)
          (max last (first - 1 + 1))] ++
      adviceRows e.defect ++ [.blank] := by
  have hstop : max (max last (first - 1)) (first - 1 + 1) = max last (first - 1 + 1) := by omega
  have hchars := SourceFile.charsBefore_line hfirst
  have htrim := SourceFile.trimEnd_line name source index
  have hname : (SourceFile.ofText name source).name = name := rfl
  rw [rowsOf, hlocation, label?_onLine hindex hfirst hlast]
  cases hhelp : e.defect.help? <;>
    simp [rows, adviceRows, hhelp, Label.rows, Label.locus, Label.isLong, Label.snippet, shortRows,
      hstop, hchars, htrim, hname]

end Report

end FortranFront
