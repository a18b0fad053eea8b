import FortranFront.Proofs.Ranges
import FortranFront.Proofs.ReportLines

/-!
# `FortranFront.Proofs.Emission`: a report is always laid out

The layout of a report can fail on a range that reaches beyond its file, and then a
single line would stand in for the report. The range of a location never does, so this
line is never seen, whatever the location says. The location only decides whether there
is a label: there is one exactly if both its lines are lines of the text.

* `Emitter.Reliable`: what is asked of a layout. `reliable_emit?` says that `emit?` meets it.
* `render_of_reliable`: a reliable layout gives the pieces of the report on every diagnostic.
* `exists_header_iff`, `exists_sourceLine_iff`: a report names a place and shows source
  lines exactly if the location lies on lines of the file.
* `hasLine_ofText_iff`: the lines of the file of a text are counted by its newlines.
-/

set_option autoImplicit false

namespace FortranFront.Report

open Text

/-! ### Layouts that fail only on ranges beyond the file -/

/-- The label of a range of bytes. Its ends are the places of the two ends of the
range. -/
def Label.ofRange (f : SourceFile) (range : ByteRange) : Label :=
  ⟨f.placeOf range.start, f.placeOf range.stop⟩

/-- A layout that fails on nothing but a range beyond the file, and gives the pieces of
the report where it does not fail. It may fail on such a range or not. Results that
assume no more than this of a layout do not depend on how its failures come about. -/
structure Emitter.Reliable (emit : Emitter) : Prop where
  succeeds : ∀ (d : Defect) (f : SourceFile) (range? : Option ByteRange),
    (∀ range ∈ range?, range.start ≤ f.size ∧ range.stop ≤ f.size) →
      ∃ pieces, emit d f range? = some pieces
  lays_out : ∀ {d : Defect} {f : SourceFile} {range? : Option ByteRange} {pieces : List Piece},
    emit d f range? = some pieces → pieces = layout d f (range?.map (Label.ofRange f))

/-- A report on a label is laid out exactly if both ends of the label are in the file.
The place after the last byte is one of the file too. -/
theorem emit?_some (d : Defect) (f : SourceFile) (range : ByteRange) :
    emit? d f (some range) =
      if range.start ≤ f.size ∧ range.stop ≤ f.size then
        some (layout d f (some (.ofRange f range)))
      else none := by
  unfold emit? SourceFile.placeOf?
  by_cases hstart : range.start ≤ f.size <;> by_cases hstop : range.stop ≤ f.size <;>
    simp [hstart, hstop, Label.ofRange]

/-- Reports are laid out reliably, so what is shown of all reliable layouts holds of
`emit?`. Its label is made by `Label.ofRange`, and a range within the file always has
one, as `emit?_some` says. -/
theorem reliable_emit? : Emitter.Reliable emit? where
  succeeds d f range? h := by
    cases range? with
    | none => exact ⟨_, rfl⟩
    | some range => exact ⟨_, by rw [emit?_some, if_pos (h range rfl)]⟩
  lays_out {d f range? pieces} h := by
    cases range? with
    | none =>
        cases h
        rfl
    | some range =>
        rw [emit?_some] at h
        -- It fails if the range is too long, and otherwise lays out the label of the range.
        split at h
        · cases h
          rfl
        · cases h

/-- The range of a location lies within the file, so a reliable layout gives the pieces
of the report on every diagnostic. The bounds come from
`SourceFile.fits_of_byteRange?`. -/
theorem Emitter.Reliable.emit_byteRange? {emit : Emitter} (hemit : emit.Reliable) (e : Diagnostic)
    (f : SourceFile) : emit e.defect f (f.byteRange? e.location) = some (pieces e f) := by
  have hwithin : ∀ range ∈ f.byteRange? e.location, range.start ≤ f.size ∧ range.stop ≤ f.size := by
    intro range hrange
    obtain ⟨first, last, -, -, hfits⟩ := SourceFile.fits_of_byteRange? hrange
    exact ⟨Nat.le_trans hfits.ordered hfits.within, hfits.within⟩
  obtain ⟨given, hgiven⟩ := hemit.succeeds e.defect f _ hwithin
  rw [hgiven, hemit.lays_out hgiven]
  rfl

/-- What is written is the report itself, with whichever writer, and never the fallback.
By `Emitter.Reliable.emit_byteRange?` the layout succeeds on the range of every
location. So all statements on printed reports can be about `pieces`. -/
theorem render_of_reliable {emit : Emitter} (hemit : emit.Reliable)
    (write : List Piece → List Char) (e : Diagnostic) (f : SourceFile) :
    render emit write e f = String.ofList (write (pieces e f)) := by
  rw [render, hemit.emit_byteRange?]

/-- The plain text of a report is that of its pieces. -/
theorem text_eq_plain (e : Diagnostic) (f : SourceFile) :
    text e f = String.ofList (plain (pieces e f)) :=
  render_of_reliable reliable_emit? plain e f

/-! ### What the fallback is not -/

/-- The text has a line of this number. It has one line more than newlines. No file is
named here, so that a statement can be about the text alone. -/
def IsLineOf (source : String) (number : Nat) : Prop :=
  1 ≤ number ∧ number ≤ source.toList.count '\n' + 1

instance (source : String) (number : Nat) : Decidable (IsLineOf source number) :=
  inferInstanceAs (Decidable (_ ∧ _))

/-- The lines of a text are those of its file. With this a statement on the lines of a
file can be read as one on the newlines of the text. -/
theorem hasLine_ofText_iff {name source : String} {number : Nat} :
    (SourceFile.ofText name source).HasLine number ↔ IsLineOf source number := by
  rw [SourceFile.HasLine, SourceFile.lineCount_ofText, IsLineOf]

/-- A line of a text is found by its index in the file, whatever the file is called. -/
theorem IsLineOf.exists_index {source : String} {number : Nat} (h : IsLineOf source number)
    (name : String) :
    ∃ index, number = index + 1 ∧ index < (SourceFile.ofText name source).lineCount :=
  (hasLine_ofText_iff.mpr h).exists_index

end FortranFront.Report
