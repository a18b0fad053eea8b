import FortranFront.Source.Range

/-!
# `FortranFront.Proofs.Places`: the lines that the bytes of a location lie on

A range of bytes is made from lines and columns, and shown by the lines and columns
of its two ends. The way there and back is not the identity: a range may take in the
newline of a line, and the byte after a newline lies on the next line.

* `placeOf_append_cons`: an offset is found on a line if it is less than the line is
  long, or if no line follows.
* `SourceFile.LinesEnded.placeOf_lineStart_add`: an offset from the start of a line, its end
  included, lies on this line or at the start of the next one.
* `SourceFile.byteRange?_of_ordered`: the range of an ordered location, from the
  starts of its two lines. A range of such a location never has to be mended.
-/

set_option autoImplicit false

namespace FortranFront

open Text

/-! ### Sizes of lines -/

/-- A text with a character has a byte, since every character is encoded in one to four
of them. -/
theorem byteSize_pos {text : List Char} (h : text ≠ []) : 0 < byteSize text := by
  obtain ⟨c, rest, rfl⟩ := List.exists_cons_of_ne_nil h
  have hc : 0 < c.utf8Size := c.utf8Size_pos
  exact Nat.add_pos_left hc _

/-- Every line that another one follows has a character, as it has its newline. Only the
last line of a text can be empty, and it is empty if the text ends with a newline. The
induction is on the text, whose first character starts a line or goes in front of
one. -/
theorem ne_nil_of_mem_dropLast_splitLines {text line : List Char}
    (h : line ∈ (splitLines text).dropLast) : line ≠ [] := by
  induction text with
  | nil => cases h
  | cons c rest ih =>
      by_cases hc : c = '\n'
      · subst hc
        rw [splitLines_cons_newline, splitLines, List.dropLast_cons_cons, List.mem_cons] at h
        obtain rfl | h := h
        · exact List.cons_ne_nil _ _
        · exact ih h
      · rw [splitLines_cons hc] at h
        -- The character goes in front of the first line, which may be the only one.
        cases hlater : (splitFirst rest).2 with
        | nil =>
            rw [hlater] at h
            cases h
        | cons next later =>
            rw [hlater, List.dropLast_cons_cons, List.mem_cons] at h
            obtain rfl | h := h
            · exact List.cons_ne_nil _ _
            · refine ih ?_
              rw [splitLines, hlater, List.dropLast_cons_cons]
              exact List.mem_cons_of_mem _ h

/-! ### Offsets among lines -/

/-- An offset that a line does not reach is looked for among the lines that follow. It
is counted from their start then, and the line found is one later. -/
theorem placeOf_cons_of_ne_nil (line : List Char) {after : List (List Char)} (h : after ≠ [])
    (offset : Nat) :
    placeOf (line :: after) offset =
      if offset < byteSize line then ⟨0, offset⟩
      else
        ⟨(placeOf after (offset - byteSize line)).line + 1,
          (placeOf after (offset - byteSize line)).offset⟩ := by
  obtain ⟨next, later, rfl⟩ := List.exists_cons_of_ne_nil h
  rfl

/-- The lines before a place count as so many lines and so many bytes. The induction is
on these lines, and `k` is the offset behind them. There has to be a line after them, as
otherwise the last of them would take all offsets. -/
theorem placeOf_append (before : List (List Char)) {after : List (List Char)} (h : after ≠ [])
    (k : Nat) :
    placeOf (before ++ after) (byteSize before.flatten + k) =
      ⟨before.length + (placeOf after k).line, (placeOf after k).offset⟩ := by
  induction before with
  | nil => simp [byteSize]
  | cons line before ih =>
      have hoffset : byteSize (line :: before).flatten + k - byteSize line =
          byteSize before.flatten + k := by
        rw [List.flatten_cons, byteSize_append]
        omega
      -- The offset is behind the first line, so that one is passed.
      have hpast : ¬ byteSize (line :: before).flatten + k < byteSize line := by
        rw [List.flatten_cons, byteSize_append]
        omega
      rw [List.cons_append, placeOf_cons_of_ne_nil line (List.append_ne_nil_of_right_ne_nil _ h),
        if_neg hpast, hoffset, ih, List.length_cons, Nat.add_right_comm]

/-- An offset lies on a line that reaches beyond it, and on the last line whatever it
is. So the end of a file has a place although no byte is there. -/
theorem placeOf_cons_of_within {line : List Char} {after : List (List Char)} {k : Nat}
    (h : k < byteSize line ∨ after = []) : placeOf (line :: after) k = ⟨0, k⟩ := by
  cases after with
  | nil => rfl
  | cons next later => exact if_pos (h.resolve_right (List.cons_ne_nil _ _))

/-- The offset `k` of a line is a place of this line if the line reaches beyond it or is
the last one. All lemmas below on offsets come down to this one. By `placeOf_append` the
lines before take their bytes from the offset, and the line itself takes what is
left. -/
theorem placeOf_append_cons (before : List (List Char)) {line : List Char}
    {after : List (List Char)} {k : Nat} (h : k < byteSize line ∨ after = []) :
    placeOf (before ++ line :: after) (byteSize before.flatten + k) = ⟨before.length, k⟩ := by
  rw [placeOf_append before (List.cons_ne_nil _ _), placeOf_cons_of_within h, Nat.add_zero]

namespace SourceFile

/-! ### Lines of a file by their number -/

/-- The bytes before a line, which are those of all lines before it. -/
def lineStart (f : SourceFile) (index : Nat) : Nat := byteSize (f.lines.take index).flatten

/-- The number of bytes of a line, with its newline. A line that the file does not have
has none. -/
def lineSize (f : SourceFile) (index : Nat) : Nat := byteSize (f.line index)

/-- A line that the file has is found in the list of lines. -/
theorem getElem?_lines {f : SourceFile} {index : Nat} (h : index < f.lineCount) :
    f.lines[index]? = some (f.line index) := by
  rw [line, List.getD_eq_getElem?_getD, List.getElem?_eq_getElem h, Option.getD_some]

/-- The lines before a line, the line and the lines after it are the file. Offsets are
split at the line in this form. -/
theorem take_append_line_cons_drop {f : SourceFile} {index : Nat} (h : index < f.lineCount) :
    f.lines.take index ++ f.line index :: f.lines.drop (index + 1) = f.lines := by
  have hsucc := List.take_append_drop (index + 1) f.lines
  rw [List.take_add_one, getElem?_lines h, List.append_assoc] at hsucc
  exact hsucc

/-- The next line starts where a line ends. If there is no next line, this is the size
of the file. -/
theorem lineStart_succ {f : SourceFile} {index : Nat} (h : index < f.lineCount) :
    f.lineStart (index + 1) = f.lineStart index + f.lineSize index := by
  rw [lineStart, List.take_add_one, getElem?_lines h, List.flatten_append, byteSize_append]
  simp [lineStart, lineSize]

/-- Lines start in their order. Empty lines start together, so the order is not
strict. -/
theorem lineStart_mono (f : SourceFile) {i j : Nat} (h : i ≤ j) : f.lineStart i ≤ f.lineStart j := by
  obtain ⟨n, rfl⟩ := Nat.exists_eq_add_of_le h
  rw [lineStart, lineStart, List.take_add, List.flatten_append, byteSize_append]
  exact Nat.le_add_right _ _

/-- The range of a line goes from its start over its size. Lines are counted from one
there, and from zero here. -/
theorem lineRange?_succ {f : SourceFile} {index : Nat} (h : index < f.lineCount) :
    f.lineRange? (index + 1) =
      some ⟨f.lineStart index, f.lineStart index + f.lineSize index⟩ := by
  rw [lineRange?, getElem?_lines h]
  rfl

/-! ### Offsets from the start of a line -/

/-- Every line but the last has something on it, be it the newline only. A file that was
not made from a text need not be like this. -/
def LinesEnded (f : SourceFile) : Prop := ∀ line ∈ f.lines.dropLast, line ≠ []

/-- The lines of a text end with their newlines, and this is all that is used of them
below. -/
theorem linesEnded_ofText (name text : String) : (ofText name text).LinesEnded :=
  fun _ hline => ne_nil_of_mem_dropLast_splitLines hline

/-- A line that another one follows has a byte, so the line after it starts later. -/
theorem LinesEnded.lineSize_pos {f : SourceFile} (h : f.LinesEnded) {index : Nat}
    (hnext : index + 1 < f.lineCount) : 0 < f.lineSize index := by
  refine byteSize_pos (h _ (List.mem_of_getElem? (i := index) ?_))
  have hshort : index < f.lines.length - 1 := Nat.lt_sub_of_add_lt hnext
  rw [List.getElem?_dropLast, if_pos hshort, getElem?_lines (Nat.lt_of_succ_lt hnext)]

/-- An offset from the start of a line is a place of this line if the line reaches
beyond it, or if it is the last one. Offsets beyond the last line stay there. -/
theorem placeOf_lineStart_add_of_within {f : SourceFile} {index k : Nat}
    (hindex : index < f.lineCount) (h : k < f.lineSize index ∨ index + 1 = f.lineCount) :
    f.placeOf (f.lineStart index + k) = ⟨index, k⟩ := by
  have hlast : k < byteSize (f.line index) ∨ f.lines.drop (index + 1) = [] :=
    h.imp_right fun hcount => List.drop_eq_nil_of_le (Nat.le_of_eq hcount.symm)
  have hplace := placeOf_append_cons (f.lines.take index) hlast
  rw [take_append_line_cons_drop hindex, List.length_take_of_le (Nat.le_of_lt hindex)] at hplace
  exact hplace

/-- An offset from the start of a line, its end included, is a place of this line unless
it is the end and another line follows. There it is the start of the next line. That the
lines have ends is needed for the next line to reach beyond its own start. It is this
case in which a report goes on to a line that its location does not name. -/
theorem LinesEnded.placeOf_lineStart_add {f : SourceFile} (hf : f.LinesEnded) {index k : Nat}
    (hindex : index < f.lineCount) (hk : k ≤ f.lineSize index) :
    f.placeOf (f.lineStart index + k) =
      if k < f.lineSize index ∨ index + 1 = f.lineCount then ⟨index, k⟩ else ⟨index + 1, 0⟩ := by
  by_cases hwithin : k < f.lineSize index ∨ index + 1 = f.lineCount
  · rw [if_pos hwithin, placeOf_lineStart_add_of_within hindex hwithin]
  · -- The offset is the end of the line, which is the start of the next one.
    obtain ⟨hend, hcount⟩ := not_or.mp hwithin
    have hnext : index + 1 < f.lineCount := Nat.lt_of_le_of_ne hindex hcount
    have hreached : 0 < f.lineSize (index + 1) ∨ index + 1 + 1 = f.lineCount :=
      (Nat.lt_or_eq_of_le hnext).imp_left hf.lineSize_pos
    rw [if_neg hwithin, Nat.le_antisymm hk (Nat.le_of_not_lt hend), ← lineStart_succ hindex]
    exact placeOf_lineStart_add_of_within hnext hreached

/-! ### The range of a location -/

/-- The range of an ordered location goes from its first column, which is counted from
one, up to its last. Both are cut off at the end of their line. That the location is
ordered keeps the end behind the start, where it would be moved otherwise. The first
line need not be bounded, since it comes no later than the last. -/
theorem byteRange?_of_ordered {f : SourceFile} {location : Location} (hordered : location.Ordered)
    {i j : Nat} (hi : location.first.line = i + 1) (hj : location.last.line = j + 1)
    (hcount : j < f.lineCount) :
    f.byteRange? location =
      some ⟨f.lineStart i + min (location.first.column - 1) (f.lineSize i),
        f.lineStart j + min location.last.column (f.lineSize j)⟩ := by
  have hlines : i < j ∨ (i = j ∧ location.first.column ≤ location.last.column) := by
    obtain h | ⟨h, hcolumn⟩ := (Position.le_def _ _).mp hordered
    · exact .inl (by omega)
    · exact .inr ⟨by omega, hcolumn⟩
  have hicount : i < f.lineCount := by omega
  -- The end need not be moved: on one line columns are ordered, and a line ends before the next.
  have hends : f.lineStart i + min (location.first.column - 1) (f.lineSize i) ≤
      f.lineStart j + min location.last.column (f.lineSize j) := by
    obtain hlt | ⟨rfl, hcolumn⟩ := hlines
    · have hstart : f.lineStart i + f.lineSize i ≤ f.lineStart j := by
        rw [← lineStart_succ hicount]
        exact f.lineStart_mono hlt
      omega
    · omega
  rw [byteRange?, hi, hj, lineRange?_succ hicount, lineRange?_succ hcount]
  simp only [Option.bind_eq_bind, Option.bind_some, Option.pure_def, Nat.add_min_add_left,
    Nat.max_eq_left hends]

end SourceFile

end FortranFront
