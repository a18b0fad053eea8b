/-!
# `FortranFront.Location`: regions of source text

A `Position` is a line and a column, both counted from one and ordered
lexicographically. A `Location` has a first and a last position, both inclusive.
Nothing forces the first one to come first: `0:0-0:0` stands for "nowhere", and a
caller may hand over any four numbers.

`Location.merge` takes the smaller start and the greater end. It is the join of
the covering order `Location.Covers`, on which the extents of whole trees rest.
-/

set_option autoImplicit false

namespace FortranFront

/-- A line and a column of a text, counted from one. There is no check that a text has
such a place, and zero is allowed, as in `Location.nowhere`. -/
structure Position where
  line : Nat
  column : Nat
deriving DecidableEq

namespace Position

/-- Earlier lines come first, and on one line smaller columns. -/
protected def le (p q : Position) : Prop :=
  p.line < q.line ∨ (p.line = q.line ∧ p.column ≤ q.column)

instance : LE Position := ⟨Position.le⟩

instance : DecidableLE Position := fun p q =>
  inferInstanceAs (Decidable (p.line < q.line ∨ (p.line = q.line ∧ p.column ≤ q.column)))

instance : Min Position := minOfLe

instance : Max Position := maxOfLe

/-- The form `line:column`. -/
instance : ToString Position := ⟨fun p => toString p.line ++ ":" ++ toString p.column⟩

theorem le_def (p q : Position) :
    p ≤ q ↔ p.line < q.line ∨ (p.line = q.line ∧ p.column ≤ q.column) := Iff.rfl

theorem min_def (p q : Position) : min p q = if p ≤ q then p else q := rfl

theorem max_def (p q : Position) : max p q = if p ≤ q then q else p := rfl

end Position

/-- A region of text from its first to its last position, both included. The two need
not be in order. -/
structure Location where
  first : Position
  last : Position
deriving DecidableEq

namespace Location

/-- The location of a thing that stands nowhere in the text. No text has a line zero, so
a report on it has no label. -/
def nowhere : Location := ⟨⟨0, 0⟩, ⟨0, 0⟩⟩

/-- A region of one line. Its last column is included, so a region of one column has it
twice. -/
def onLine (line firstColumn lastColumn : Nat) : Location :=
  ⟨⟨line, firstColumn⟩, ⟨line, lastColumn⟩⟩

/-- The least region that covers both, reaching from the smaller start to the greater
end. `Proofs/LeastCover` shows that it is the join of `Covers`. -/
def merge (a b : Location) : Location := ⟨min a.first b.first, max a.last b.last⟩

/-- One region covers another if it starts no later and ends no earlier. The ends are
compared as positions, so this can be asked of regions that are not ordered too. -/
def Covers (a b : Location) : Prop := a.first ≤ b.first ∧ b.last ≤ a.last

instance (a b : Location) : Decidable (Covers a b) :=
  inferInstanceAs (Decidable (a.first ≤ b.first ∧ b.last ≤ a.last))

/-- A location is ordered if it does not start after its end. Merging ordered locations
gives an ordered one. -/
def Ordered (a : Location) : Prop := a.first ≤ a.last

instance (a : Location) : Decidable a.Ordered := inferInstanceAs (Decidable (a.first ≤ a.last))

/-- The form `line:column-line:column`. -/
instance : ToString Location := ⟨fun a => toString a.first ++ "-" ++ toString a.last⟩

end Location

end FortranFront
