import FortranFront.Location
import Mathlib.Order.MinMax

/-!
# `FortranFront.Proofs.Covering`: locations by what they cover

Positions are linearly ordered, lines before columns. One location covers another if
it starts no later and ends no earlier, whether or not either of them is ordered.

* `covers_merge_left`, `covers_merge_right`: two locations merged cover both of them.
* `Ordered.of_covers`: whatever covers an ordered location is ordered.
-/

set_option autoImplicit false

namespace FortranFront

instance : LinearOrder Position where
  le_refl p := (Position.le_def p p).mpr (by omega)
  le_trans p q r hpq hqr := by
    rw [Position.le_def] at hpq hqr ⊢
    omega
  le_antisymm p q hpq hqp := by
    rw [Position.le_def] at hpq hqp
    have hline : p.line = q.line := by omega
    have hcolumn : p.column = q.column := by omega
    cases p
    cases q
    cases hline
    cases hcolumn
    rfl
  le_total p q := by
    rw [Position.le_def, Position.le_def]
    omega
  toDecidableLE := inferInstance
  min_def := Position.min_def
  max_def := Position.max_def

/-- A position that is no later is on the same line or an earlier one. Its column may be
any. -/
theorem Position.line_le {p q : Position} (h : p ≤ q) : p.line ≤ q.line := by
  rw [Position.le_def] at h
  omega

namespace Location

variable {a b c : Location}

/-- A location covers itself, ordered or not. -/
theorem Covers.refl (a : Location) : a.Covers a := ⟨le_refl _, le_refl _⟩

/-- What covers a location covers all that the location covers. -/
theorem Covers.trans (hab : a.Covers b) (hbc : b.Covers c) : a.Covers c :=
  ⟨le_trans hab.1 hbc.1, le_trans hbc.2 hab.2⟩

/-- Two locations merged cover the first. The start is the earlier of the two, and the
end the later. Neither has to be ordered for this, since a merge takes the starts and
the ends apart. -/
theorem covers_merge_left (a b : Location) : (a.merge b).Covers a :=
  ⟨min_le_left _ _, le_max_left _ _⟩

/-- Two locations merged cover the second. -/
theorem covers_merge_right (a b : Location) : (a.merge b).Covers b :=
  ⟨min_le_right _ _, le_max_right _ _⟩

/-- What covers an ordered location starts before it ends, because it starts even
earlier and ends even later. -/
theorem Ordered.of_covers (hab : a.Covers b) (hb : b.Ordered) : a.Ordered :=
  le_trans hab.1 (le_trans hb hab.2)

/-- A location merged with an ordered one is ordered, whether the other is or not. -/
theorem Ordered.merge (ha : a.Ordered) (b : Location) : (a.merge b).Ordered :=
  .of_covers (covers_merge_left a b) ha

end Location

end FortranFront
