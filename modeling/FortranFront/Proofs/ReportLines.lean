import FortranFront.Report
import FortranFront.Proofs.Places

/-!
# `FortranFront.Proofs.ReportLines`: the lines a report names and shows

A report names the line its label starts on and shows source lines with their
numbers. Both come from the places of the two ends of a byte range, not from the
lines of the location the range was made from.

* `rows_eq_append`: the parts that a report is put together from.
* `showsLines_rows`: a report on a label names the first line of the label and shows
  source lines from there to its last line, in order.
* `showsLines_of_location`: the report on an ordered location names and shows the
  lines of the location as long as its columns are within its lines. A last column
  that takes in the newline of its line is shown at the start of the next one, and so
  is a first column beyond the newline.
-/

set_option autoImplicit false

namespace FortranFront.Report

open Text

/-- The line that a row names as the start of the label. Only the row with the name of
the file does. -/
def Row.locusLine? : Row → Option Nat
  | .locus _ line _ => some line
  | _ => none

/-- The number of the source line that a row shows, which stands in its margin. -/
def Row.sourceLine? : Row → Option Nat
  | .source number _ _ _ => some number
  | _ => none

/-- The rows name one line, show source lines in their order from this line on, and end
with another. Lines between them may be left out. -/
structure ShowsLines (rows : List Row) (first last : Nat) : Prop where
  named : rows.filterMap Row.locusLine? = [first]
  ascending : (rows.filterMap Row.sourceLine?).Pairwise (· < ·)
  starts : (rows.filterMap Row.sourceLine?).head? = some first
  ends : (rows.filterMap Row.sourceLine?).getLast? = some last

/-! ### The rows of a label -/

section

variable (f : SourceFile)

/-- The rows of lines that follow one another show their numbers, which count from one,
while lines are counted from zero. -/
theorem sourceLines_map_passedRow (start count : Nat) :
    ((List.range' start count).map (passedRow f)).filterMap Row.sourceLine? =
      List.range' (start + 1) count := by
  induction count generalizing start with
  | zero => rfl
  | succ count ih =>
      show (start + 1) :: ((List.range' (start + 1) count).map (passedRow f)).filterMap
          Row.sourceLine? = List.range' (start + 1) (count + 1)
      rw [ih, List.range'_succ]

/-- Of the lines that the bracket runs past, some are shown, in their order. Which ones
depends on how many there are. The sign for the others shows no line, so it drops
out. -/
theorem sourceLines_passedRows (first last : Nat) :
    ((passedRows f first last).filterMap Row.sourceLine?).Sublist
      (List.range' (first + 2) (last - first - 1)) := by
  rw [passedRows, ← sourceLines_map_passedRow f (first + 1)]
  generalize (List.range' (first + 1) (last - first - 1)).map (passedRow f) = passed
  by_cases hfew : passed.length ≤ leadingLines + 1 + trailingLines
  · simpa only [if_pos hfew] using List.Sublist.refl _
  · -- What is shown of a long run are its first lines and its last, and they do not overlap.
    have hapart : leadingLines ≤ passed.length - trailingLines := by omega
    have hends : (passed.take leadingLines ++ passed.drop (passed.length - trailingLines)).Sublist
        passed := by
      have hlater := (List.drop_sublist_drop_left passed hapart).append_left
        (passed.take leadingLines)
      rwa [List.take_append_drop] at hlater
    have hshown := hends.filterMap Row.sourceLine?
    rw [List.filterMap_append] at hshown
    rw [if_neg hfew, List.filterMap_append, List.filterMap_append, List.append_assoc]
    exact hshown

/-- The line a long label starts on is shown once, in whichever way the bracket
opens. -/
theorem sourceLines_openingRows (place : Place) :
    (openingRows f place).filterMap Row.sourceLine? = [place.line + 1] := by
  unfold openingRows
  dsimp only
  split <;> rfl

/-- The source lines of a short label are its one line. -/
theorem sourceLines_snippet_short {l : Label} (h : l.first.line = l.last.line) :
    (l.snippet f).filterMap Row.sourceLine? = [l.first.line + 1] := by
  have hshort : l.isLong = false := by simp [Label.isLong, h]
  rw [Label.snippet, hshort]
  rfl

/-- The source lines of a long label are its first line, some of the lines between and
its last line. -/
theorem sourceLines_snippet_long {l : Label} (h : l.first.line < l.last.line) :
    ∃ between : List Nat,
      between.Sublist (List.range' (l.first.line + 2) (l.last.line - l.first.line - 1)) ∧
        (l.snippet f).filterMap Row.sourceLine? =
          (l.first.line + 1) :: (between ++ [l.last.line + 1]) := by
  have hlong : l.isLong = true := by simp [Label.isLong, Nat.ne_of_lt h]
  refine ⟨_, sourceLines_passedRows f l.first.line l.last.line, ?_⟩
  rw [Label.snippet, hlong, if_pos rfl, List.filterMap_append, List.filterMap_append,
    sourceLines_openingRows]
  rfl

/-- The bracket runs past source lines, and past a sign where some are left out. So a
statement about these rows need be shown of two kinds of rows only. -/
theorem mem_passedRows {first last : Nat} {row : Row} (h : row ∈ passedRows f first last) :
    row = .elision ∨ ∃ index, row = passedRow f index := by
  have hline : ∀ {row : Row},
      row ∈ (List.range' (first + 1) (last - first - 1)).map (passedRow f) →
        ∃ index, row = passedRow f index := by
    intro row hrow
    obtain ⟨index, -, rfl⟩ := List.mem_map.mp hrow
    exact ⟨index, rfl⟩
  unfold passedRows at h
  dsimp only at h
  -- Few lines are all shown, and of many the ends.
  split at h
  · exact .inr (hline h)
  · rw [List.mem_append, List.mem_append, List.mem_singleton] at h
    obtain (h | h) | h := h
    · exact .inr (hline (List.mem_of_mem_take h))
    · exact .inl h
    · exact .inr (hline (List.mem_of_mem_drop h))

/-- No row of a snippet names the start of the label, so a report names it once. The
parts of a snippet are looked through one by one. -/
theorem locusLines_snippet (l : Label) : (l.snippet f).filterMap Row.locusLine? = [] := by
  have hopening : (openingRows f l.first).filterMap Row.locusLine? = [] := by
    unfold openingRows
    dsimp only
    split <;> rfl
  have hpassed : (passedRows f l.first.line l.last.line).filterMap Row.locusLine? = [] := by
    refine List.filterMap_eq_nil_iff.mpr ?_
    intro row hrow
    obtain rfl | ⟨index, rfl⟩ := mem_passedRows f hrow <;> rfl
  -- What is left is to put the parts together.
  unfold Label.snippet
  split
  · rw [List.filterMap_append, List.filterMap_append, hopening, hpassed]
    rfl
  · rfl

end

/-! ### The rows of a report -/

/-- The rows that give the advice on a defect. A border stands between a label and the
advice. Where there is no advice there are no such rows. -/
def adviceAfter (label? : Option Label) (d : Defect) : List Row :=
  d.help?.elim [] fun help => (label?.elim [] fun l => [.border l.isLong]) ++ [helpRow help]

/-- A report is a title, the rows of its label, an advice and a blank row. Its label and
its advice may be missing. `rows` has these four cases apart, and all lemmas about a
whole report start from here. -/
theorem rows_eq_append (d : Defect) (f : SourceFile) (label? : Option Label) :
    rows d f label? =
      [.title d.code d.message] ++ label?.elim [] (Label.rows f) ++ adviceAfter label? d ++
        [.blank] := by
  unfold rows adviceAfter
  cases label? <;> cases d.help? <;> simp

/-- An advice has a border and a note, and no row that shows a line. The border is
missing where there is no label. -/
theorem mem_adviceAfter {label? : Option Label} {d : Defect} {row : Row}
    (h : row ∈ adviceAfter label? d) :
    (∃ bracketed, row = .border bracketed) ∨ ∃ help, d.help? = some help ∧ row = helpRow help := by
  unfold adviceAfter at h
  cases hhelp : d.help? with
  | none =>
      rw [hhelp] at h
      cases h
  | some help =>
      rw [hhelp, Option.elim_some, List.mem_append, List.mem_singleton] at h
      -- The first row is there for a label only.
      rcases h with hborder | hnote
      · cases label? with
        | none => cases hborder
        | some l => exact .inl ⟨l.isLong, List.mem_singleton.mp hborder⟩
      · exact .inr ⟨help, rfl, hnote⟩

/-- Beside its snippet a report has one row that names the start of its label, and none
that shows a source line. So what is picked out of a report that passes over titles,
borders, notes and blank rows is picked out of the label. -/
theorem filterMap_rows {α : Type} (pick : Row → Option α) (d : Defect) (f : SourceFile) (l : Label)
    (htitle : ∀ code message, pick (.title code message) = none)
    (hborder : ∀ bracketed, pick (.border bracketed) = none)
    (hnote : ∀ text, pick (.note text) = none) (hblank : pick .blank = none) :
    (rows d f (some l)).filterMap pick =
      (pick (l.locus f)).toList ++ (l.snippet f).filterMap pick := by
  have hadvice : (adviceAfter (some l) d).filterMap pick = [] := by
    refine List.filterMap_eq_nil_iff.mpr ?_
    intro row hrow
    rcases mem_adviceAfter hrow with ⟨bracketed, rfl⟩ | ⟨help, -, rfl⟩
    · exact hborder bracketed
    · exact hnote _
  rw [rows_eq_append, Option.elim_some, Label.rows, List.filterMap_append, List.filterMap_append,
    List.filterMap_append, List.filterMap_append, hadvice]
  cases hlocus : pick (l.locus f) <;> simp [htitle, hborder, hblank, hlocus]

/-- A report on a label names its first line and shows source lines from there to its
last line, in their order. The label may have one line or more, and the lines shown are
some of those in this stretch. The title, the advice and the blank row show none, so
only the rows of the label are looked at. -/
theorem showsLines_rows (d : Defect) (f : SourceFile) {l : Label}
    (h : l.first.line ≤ l.last.line) :
    ShowsLines (rows d f (some l)) (l.first.line + 1) (l.last.line + 1) := by
  -- The row with the name of the file is the only one that names a line.
  have hnamed : (rows d f (some l)).filterMap Row.locusLine? = [l.first.line + 1] := by
    rw [filterMap_rows Row.locusLine? d f l (fun _ _ => rfl) (fun _ => rfl) (fun _ => rfl) rfl,
      locusLines_snippet]
    rfl
  have hshown : (rows d f (some l)).filterMap Row.sourceLine? =
      (l.snippet f).filterMap Row.sourceLine? := by
    rw [filterMap_rows Row.sourceLine? d f l (fun _ _ => rfl) (fun _ => rfl) (fun _ => rfl) rfl]
    rfl
  obtain hlt | heq := Nat.lt_or_eq_of_le h
  · obtain ⟨between, hbetween, hlines⟩ := sourceLines_snippet_long f hlt
    rw [hlines] at hshown
    -- The lines shown are some of those from the first to the last.
    have hall : ((l.first.line + 1) :: (between ++ [l.last.line + 1])).Sublist
        (List.range' (l.first.line + 1) (l.last.line - l.first.line + 1)) := by
      have hcount : l.last.line - l.first.line = l.last.line - l.first.line - 1 + 1 := by omega
      have hlast : l.last.line + 1 = l.first.line + 2 + (l.last.line - l.first.line - 1) := by omega
      rw [List.range'_succ, hcount, List.range'_1_concat, hlast]
      exact (hbetween.append_right _).cons_cons _
    refine ⟨hnamed, ?_, ?_, ?_⟩
    · rw [hshown]
      exact List.Pairwise.sublist hall List.pairwise_lt_range'
    · rw [hshown]
      rfl
    · rw [hshown, List.getLast?_cons, List.getLast?_concat]
      rfl
  · rw [sourceLines_snippet_short f heq] at hshown
    refine ⟨hnamed, ?_, ?_, ?_⟩
    · rw [hshown]
      exact List.pairwise_singleton _ _
    · rw [hshown]
      rfl
    · rw [hshown, heq]
      rfl

/-! ### The rows of a location -/

/-- The rows of the report on a diagnostic. Its label is that of the location. -/
def rowsOf (e : Diagnostic) (f : SourceFile) : List Row := rows e.defect f (label? f e.location)

/-- The report is its rows written one after the other. So what is shown of the rows is
shown of the report. -/
theorem pieces_eq_flatMap_rowsOf (e : Diagnostic) (f : SourceFile) :
    pieces e f = (rowsOf e f).flatMap (Row.pieces ((label? f e.location).elim 0 Label.margin)) :=
  rfl

/-- The line a report names for the start of a location. It is the line of the location
if its column is on it, the newline included, or if no line follows. A column beyond the
newline is cut off there, and the byte after a newline is on the next line. -/
def namedLine (f : SourceFile) (p : Position) : Nat :=
  if p.column ≤ f.lineSize (p.line - 1) ∨ p.line = f.lineCount then p.line else p.line + 1

/-- The last line a report shows for the end of a location. It is the line of the
location if its column comes before the newline, or if no line follows. The end of a
range is the byte after it, so the newline itself is already too far. -/
def lastShownLine (f : SourceFile) (p : Position) : Nat :=
  if p.column < f.lineSize (p.line - 1) ∨ p.line = f.lineCount then p.line else p.line + 1

/-- The first byte of an ordered location is placed on the line that a report names. -/
theorem line_placeOf_first {f : SourceFile} (hf : f.LinesEnded) {i : Nat} (hi : i < f.lineCount)
    (column : Nat) :
    (f.placeOf (f.lineStart i + min (column - 1) (f.lineSize i))).line + 1 =
      namedLine f ⟨i + 1, column⟩ := by
  have hcolumn : min (column - 1) (f.lineSize i) < f.lineSize i ∨ i + 1 = f.lineCount ↔
      column ≤ f.lineSize i ∨ i + 1 = f.lineCount := by
    obtain hnext | hend := Nat.lt_or_eq_of_le hi
    · have hsize := hf.lineSize_pos hnext
      omega
    · exact iff_of_true (.inr hend) (.inr hend)
  rw [hf.placeOf_lineStart_add hi (Nat.min_le_right _ _), namedLine, Nat.add_sub_cancel]
  simp only [hcolumn]
  split <;> rfl

/-- The byte after an ordered location is placed on the last line that a report
shows. -/
theorem line_placeOf_last {f : SourceFile} (hf : f.LinesEnded) {j : Nat} (hj : j < f.lineCount)
    (column : Nat) :
    (f.placeOf (f.lineStart j + min column (f.lineSize j))).line + 1 =
      lastShownLine f ⟨j + 1, column⟩ := by
  have hcolumn : min column (f.lineSize j) < f.lineSize j ∨ j + 1 = f.lineCount ↔
      column < f.lineSize j ∨ j + 1 = f.lineCount := by
    omega
  rw [hf.placeOf_lineStart_add hj (Nat.min_le_right _ _), lastShownLine, Nat.add_sub_cancel]
  simp only [hcolumn]
  split <;> rfl

/-- The ends of an ordered location stay in order where they are shown, though either
may be moved to the next line. -/
theorem namedLine_le_lastShownLine (f : SourceFile) {p q : Position} (h : p ≤ q) :
    namedLine f p ≤ lastShownLine f q := by
  have hle := (Position.le_def p q).mp h
  unfold namedLine lastShownLine
  obtain hlt | ⟨heq, hcolumn⟩ := hle
  · split <;> split <;> omega
  · rw [heq]
    split <;> split <;> omega

/-- Let both lines of an ordered location be lines of a text. Then the report on it
names and shows the lines of the location, but goes on to the start of the next line
with a first column beyond the newline and with a last column that reaches it. The
columns may be any, zero among them.

The range of the location is known by `SourceFile.byteRange?_of_ordered`, its two ends
are placed by `line_placeOf_first` and `line_placeOf_last`, and `showsLines_rows` says
what a label between two places shows. -/
theorem showsLines_of_location {e : Diagnostic} {name source : String}
    (hordered : e.location.Ordered) (hfirst : 1 ≤ e.location.first.line)
    (hlast : e.location.last.line ≤ (SourceFile.ofText name source).lineCount) :
    ShowsLines (rowsOf e (SourceFile.ofText name source))
      (namedLine (SourceFile.ofText name source) e.location.first)
      (lastShownLine (SourceFile.ofText name source) e.location.last) := by
  have hf := SourceFile.linesEnded_ofText name source
  generalize SourceFile.ofText name source = f at hlast hf ⊢
  have hlines := (Position.le_def _ _).mp hordered
  have hi : e.location.first.line = e.location.first.line - 1 + 1 := by omega
  have hj : e.location.last.line = e.location.last.line - 1 + 1 := by omega
  -- The two ends of the range are placed each on its own.
  have hnamed := line_placeOf_first hf (i := e.location.first.line - 1) (by omega)
    e.location.first.column
  have hshown := line_placeOf_last hf (j := e.location.last.line - 1) (by omega)
    e.location.last.column
  rw [← hi] at hnamed
  rw [← hj] at hshown
  have horder := namedLine_le_lastShownLine f hordered
  rw [rowsOf, label?, SourceFile.byteRange?_of_ordered hordered hi hj (by omega), Option.map_some,
    ← hnamed, ← hshown]
  refine showsLines_rows e.defect f ?_
  rw [← hnamed, ← hshown] at horder
  exact Nat.le_of_succ_le_succ horder

/-- A complaint about the first column of a text. That column need not hold a
character. -/
def atStart : Diagnostic := ⟨.emptyIntent, .onLine 1 1 1⟩

/-- The first line of this text is empty, so the report goes on to the second. -/
theorem atStart_shows_second_line :
    atStart.location.Ordered ∧ 1 ≤ atStart.location.first.line ∧
      atStart.location.last.line ≤ (SourceFile.ofText "bar.f90" "\nend\n").lineCount ∧
      ((rowsOf atStart (SourceFile.ofText "bar.f90" "\nend\n")).filterMap
        Row.sourceLine?).getLast? ≠ some atStart.location.last.line := by
  decide

/-- A complaint about the dummy argument at column 16, with a last column that may be
too great. -/
def dummyUpTo (column : Nat) : Diagnostic := ⟨.undeclaredDummy "z", .onLine 1 16 column⟩

/-- The line has seventeen characters. A last column on the newline after them is shown on the next
line. -/
theorem dummyUpTo_shown :
    ShowsLines (rowsOf (dummyUpTo 17) (.ofText "bar.f90" "subroutine bar(z)\nend\n")) 1 1 ∧
      ShowsLines (rowsOf (dummyUpTo 18) (.ofText "bar.f90" "subroutine bar(z)\nend\n")) 1 2 :=
  ⟨showsLines_of_location (e := dummyUpTo 17) (by decide) (by decide) (by decide),
    showsLines_of_location (e := dummyUpTo 18) (by decide) (by decide) (by decide)⟩

end FortranFront.Report
