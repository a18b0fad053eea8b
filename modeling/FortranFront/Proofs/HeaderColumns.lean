import FortranFront.Proofs.LineTexts
import FortranFront.Proofs.RowTexts

/-!
# `FortranFront.Proofs.HeaderColumns`: the column that a report names

The columns of a location count characters, and so does the column that a report names.
In between, `SourceFile.byteRange?` takes the column for a number of bytes. The two ends
agree as long as all characters before the column have one byte. After a longer character
the report names an earlier column than the location.

* `header_onLine`: the line and the column that the report on a location within the text of
  one line names, and when they are those of the location.
* `afterAccent_named_before`: a line on which they are not.
-/

set_option autoImplicit false

namespace FortranFront.Report

open Text

/-- The file, the line and the column that a row names as the place of the label. One
row of a report on a label has them. -/
def Row.place? : Row → Option (String × Nat × Nat)
  | .locus file line column => some (file, line, column)
  | _ => none

/-- The column that a report names for a column of a line. It is one more than the
characters that end before the byte of this column. A character that this byte cuts does
not count. -/
def namedColumn (f : SourceFile) (line column : Nat) : Nat :=
  charsBefore (column - 1) (f.lineText (line - 1)) + 1

/-- The report on a location within the text of one line names one place. Its line is
that of the location. Its column is the first of the location exactly if the characters
of the line before that column have one byte each, and otherwise it is smaller. The
characters behind the column may have any number of bytes.

The byte at which the label starts is one less than the column, as if all characters had
one byte. The characters before this byte are counted then, and `charsBefore_eq_iff`
says when there are as many of them as bytes. -/
theorem header_onLine {e : Diagnostic} {name source : String} {f : SourceFile} {k first last : Nat}
    (hf : f = .ofText name source) (hlocation : e.location = .onLine k first last)
    (hk : IsLineOf source k) (hfirst : 1 ≤ first) (horder : first ≤ last)
    (hlast : last ≤ (f.lineText (k - 1)).length) :
    (rowsOf e f).filterMap Row.place? = [(name, k, namedColumn f k first)] ∧
    (∃ later, text e f =
      "error[" ++ e.defect.code ++ "]: " ++ e.defect.message ++ "\n" ++
      blanks ((toString k).length + 1) ++ "┌─ " ++ name ++ ":" ++ toString k ++ ":" ++
        toString (namedColumn f k first) ++ "\n" ++
      later) ∧
    namedColumn f k first ≤ first ∧
    (namedColumn f k first = first ↔
      ∀ c ∈ (f.lineText (k - 1)).take (first - 1), c.utf8Size = 1) := by
  subst hf
  obtain ⟨index, rfl, hindex⟩ := hk.exists_index name
  simp only [namedColumn, Nat.add_sub_cancel] at hlast ⊢
  have hbytes := length_le_byteSize ((SourceFile.ofText name source).lineText index)
  have hstart : first - 1 ≤ byteSize ((SourceFile.ofText name source).lineText index) := by omega
  have hstop : last ≤ byteSize ((SourceFile.ofText name source).lineText index) := by omega
  have hrows := rowsOf_onLine hlocation hindex hstart hstop
  -- The advice and the blank row name no place.
  have hplaces : (adviceRows e.defect ++ [Row.blank]).filterMap Row.place? = [] := by
    unfold adviceRows
    cases e.defect.help? <;> rfl
  refine ⟨?_, ?_, ?_, ?_⟩
  · rw [hrows, List.append_assoc, List.filterMap_append, hplaces]
    rfl
  · rw [text_onLine hlocation hindex hstart hstop, hrows, List.append_assoc, List.cons_append,
      List.cons_append, rowsText_header]
    exact ⟨_, rfl⟩
  · have hle := charsBefore_le (first - 1) ((SourceFile.ofText name source).lineText index)
    omega
  · have hlength : first - 1 ≤ ((SourceFile.ofText name source).lineText index).length := by omega
    rw [← charsBefore_eq_iff hlength]
    omega

/-- A complaint about a name after a letter with an accent. The letter has two bytes. -/
def afterAccent : Diagnostic := ⟨.undefinedSymbol "x", .onLine 1 3 3⟩

/-- The name is the third character of this line. The third byte is the second character, since
the first one has two bytes, and the report names that. -/
theorem afterAccent_named_before :
    (SourceFile.ofText "bar.f90" "é=x\n").lineText 0 = ['é', '=', 'x'] ∧
      (rowsOf afterAccent (.ofText "bar.f90" "é=x\n")).filterMap Row.place? =
        [("bar.f90", 1, 2)] := by
  decide

/-- The column of a name before such a letter is named as it is. Only what stands before
the name matters. -/
theorem header_beforeAccent :
    (rowsOf ⟨.undefinedSymbol "x", .onLine 1 3 3⟩ (.ofText "bar.f90" "y=x*é\n")).filterMap
        Row.place? = [("bar.f90", 1, 3)] := by
  obtain ⟨hplace, -, -, hcolumn⟩ :=
    header_onLine (e := ⟨.undefinedSymbol "x", .onLine 1 3 3⟩)
      (f := .ofText "bar.f90" "y=x*é\n") rfl rfl (by decide) (by decide) (by decide) (by decide)
  have hearlier : ((SourceFile.ofText "bar.f90" "y=x*é\n").lineText 0).take 2 = ['y', '='] := by
    decide
  rw [hplace, hcolumn.mpr]
  intro c hc
  rw [hearlier] at hc
  obtain rfl | rfl : c = 'y' ∨ c = '=' := by simpa using hc
  · rfl
  · rfl

end FortranFront.Report
