import FortranFront.Diagnostic
import FortranFront.Parsed.Expr
import FortranFront.Proofs.Covering
import FortranFront.Proofs.Ranges

/-!
# `FortranFront.Proofs.Merging`: ranges of bytes follow the locations they stand for

The ends of the range of an ordered location are bytes of its two positions. Both grow
with the position: on one line with the column until the line ends, and a line ends
where the next one starts. So ranges keep the order in which locations cover each other.

* `SourceFile.byteRange?_of_covers`: the range of a location contains the range of every
  ordered location that it covers.
* `Parsed.Expr.BuiltOver.covers`: in a tree whose operations reach over just their operands,
  a node covers all that is below it.
* `SourceFile.byteRange?_follows_merge`: two ordered locations merged have the least range
  that contains both of their ranges, and so the range of an operation contains the ranges
  of its operands.
-/

set_option autoImplicit false

namespace FortranFront

/-- The least range that contains two others. Its ends are given as well, so nothing is
left to choose. -/
structure ByteRange.IsHull (range a b : ByteRange) : Prop where
  start : range.start = min a.start b.start
  stop : range.stop = max a.stop b.stop
  left : range.Contains a
  right : range.Contains b
  least : ∀ outer : ByteRange, outer.Contains a → outer.Contains b → outer.Contains range

/-- From the smaller start to the greater end is the least range. What lies between the
two is taken in too. -/
theorem ByteRange.isHull_min_max (a b : ByteRange) :
    IsHull ⟨min a.start b.start, max a.stop b.stop⟩ a b where
  start := rfl
  stop := rfl
  left := ⟨min_le_left _ _, le_max_left _ _⟩
  right := ⟨min_le_right _ _, le_max_right _ _⟩
  least _ ha hb := ⟨le_min ha.1 hb.1, max_le ha.2 hb.2⟩

/-- The position one column before. There is nothing before column zero. The range of a
location starts at the byte of this position. -/
def Position.before (p : Position) : Position := ⟨p.line, p.column - 1⟩

/-- One column less keeps positions in order, even where there is no column less. -/
theorem Position.monotone_before : Monotone Position.before := by
  intro p q h
  rw [Position.le_def] at h ⊢
  simp only [before]
  omega

namespace SourceFile

/-! ### The bytes of positions -/

/-- The byte offset after the columns of a line up to a position, or the end of the line
if the line has fewer. Both ends of a range are such offsets. -/
def byteOf (f : SourceFile) (p : Position) : Nat :=
  f.lineStart (p.line - 1) + min p.column (f.lineSize (p.line - 1))

variable {f : SourceFile}

/-- A later position does not have an earlier byte. On lines that the file does not have
this need not be so, and no location with a range is there. On two lines it comes down
to `lineStart_succ`, which says that a line ends where the next one starts. -/
theorem monotoneOn_byteOf (f : SourceFile) : MonotoneOn f.byteOf {p | f.HasLine p.line} := by
  intro p hp q hq h
  obtain ⟨i, hi, hicount⟩ := HasLine.exists_index hp
  obtain ⟨j, hj, -⟩ := HasLine.exists_index hq
  rw [Position.le_def] at h
  simp only [byteOf, hi, hj, Nat.add_sub_cancel] at h ⊢
  -- On one line the columns decide, and otherwise the first line ends before the second starts.
  obtain hlt | ⟨heq, hcolumn⟩ := h
  · have hstart := f.lineStart_mono (show i + 1 ≤ j by omega)
    rw [lineStart_succ hicount] at hstart
    omega
  · obtain rfl : i = j := by omega
    omega

/-- The first byte of a position grows with it as well, by the two lemmas above. -/
theorem monotoneOn_byteOf_before (f : SourceFile) :
    MonotoneOn (fun p : Position => f.byteOf p.before) {p | f.HasLine p.line} := by
  intro p hp q hq h
  have hpbefore : p.before ∈ {p | f.HasLine p.line} := hp
  have hqbefore : q.before ∈ {p | f.HasLine p.line} := hq
  exact f.monotoneOn_byteOf hpbefore hqbefore (Position.monotone_before h)

/-- The range of an ordered location goes from the byte before its first column to the
byte after its last. So it is known once `byteOf` is known of its two positions. -/
theorem byteRange?_eq_of_ordered {location : Location} (hordered : location.Ordered)
    (hlines : f.HasLinesOf location) :
    f.byteRange? location = some ⟨f.byteOf location.first.before, f.byteOf location.last⟩ := by
  obtain ⟨i, hi, -⟩ := hlines.1.exists_index
  obtain ⟨j, hj, hjcount⟩ := hlines.2.exists_index
  rw [byteRange?_of_ordered hordered hi hj hjcount]
  simp only [byteOf, Position.before, hi, hj, Nat.add_sub_cancel]

/-! ### Ranges of covering and merged locations -/

/-- Two locations merged lie on lines that one of them lies on, as either end comes from
one of them. -/
theorem HasLinesOf.merge {a b : Location} (ha : f.HasLinesOf a) (hb : f.HasLinesOf b) :
    f.HasLinesOf (a.merge b) := by
  constructor
  · show f.HasLine (min a.first b.first).line
    obtain h | h := min_choice a.first b.first <;> rw [h]
    · exact ha.1
    · exact hb.1
  · show f.HasLine (max a.last b.last).line
    obtain h | h := max_choice a.last b.last <;> rw [h]
    · exact ha.2
    · exact hb.2

/-- What lies between the lines of a file lies on lines of the file. The lines of a file
are numbered without gaps. -/
theorem HasLinesOf.of_covers {a b : Location} (ha : f.HasLinesOf a) (hcovers : a.Covers b)
    (hb : b.Ordered) : f.HasLinesOf b := by
  have hfirst := Position.line_le hcovers.1
  have hlast := Position.line_le hcovers.2
  have hlines := Position.line_le hb
  have hlow := ha.1.1
  have hhigh := ha.2.2
  exact ⟨⟨by omega, by omega⟩, by omega, by omega⟩

/-- The range of a location contains the range of every ordered location that it covers.
The outer one need not be called ordered, since it covers an ordered one. By
`byteRange?_eq_of_ordered` either range goes from the byte of its first position to that
of its last, and `monotoneOn_byteOf` says that later positions have later bytes. -/
theorem byteRange?_of_covers {a b : Location} (hcovers : a.Covers b) (hb : b.Ordered)
    {range : ByteRange} (h : f.byteRange? a = some range) :
    ∃ inner, f.byteRange? b = some inner ∧ range.Contains inner := by
  have ha := hasLinesOf_of_byteRange? h
  have hinside := ha.of_covers hcovers hb
  rw [byteRange?_eq_of_ordered (.of_covers hcovers hb) ha] at h
  cases h
  refine ⟨_, byteRange?_eq_of_ordered hb hinside, ?_, ?_⟩
  · exact f.monotoneOn_byteOf_before ha.1 hinside.1 hcovers.1
  · exact f.monotoneOn_byteOf hinside.2 ha.2 hcovers.2

/-- Two ordered locations merged have the least range that contains both of their
ranges. A function that keeps the order takes a minimum to a minimum, and likewise for
the maximum. -/
theorem byteRange?_merge {a b : Location} (ha : a.Ordered) (hb : b.Ordered)
    {rangeA rangeB : ByteRange} (hrangeA : f.byteRange? a = some rangeA)
    (hrangeB : f.byteRange? b = some rangeB) :
    f.byteRange? (a.merge b) =
      some ⟨min rangeA.start rangeB.start, max rangeA.stop rangeB.stop⟩ := by
  have hlinesA := hasLinesOf_of_byteRange? hrangeA
  have hlinesB := hasLinesOf_of_byteRange? hrangeB
  -- The ends of the merged range are those of its positions, and these are a minimum and a
  -- maximum.
  have hstart : f.byteOf (min a.first b.first).before =
      min (f.byteOf a.first.before) (f.byteOf b.first.before) :=
    f.monotoneOn_byteOf_before.map_min hlinesA.1 hlinesB.1
  have hstop : f.byteOf (max a.last b.last) = max (f.byteOf a.last) (f.byteOf b.last) :=
    f.monotoneOn_byteOf.map_max hlinesA.2 hlinesB.2
  rw [byteRange?_eq_of_ordered ha hlinesA] at hrangeA
  rw [byteRange?_eq_of_ordered hb hlinesB] at hrangeB
  cases hrangeA
  cases hrangeB
  rw [byteRange?_eq_of_ordered (ha.merge b) (hlinesA.merge hlinesB), ← hstart, ← hstop]
  rfl

end SourceFile

/-! ### Trees whose operations reach over just their operands -/

namespace Parsed.Expr

/-- The tree is built from leaves whose locations have a property. Its operations have
no location of their own but reach over just their operands, as `Expr.apply` makes
them. -/
inductive BuiltOver (p : Location → Prop) : Expr → Prop
  | name {id : String} {location : Location} (h : p location) : BuiltOver p (.name id location)
  | literal {value : Int} {location : Location} (h : p location) :
      BuiltOver p (.literal value location)
  | apply {op : Operator} {left right : Expr} (hleft : BuiltOver p left)
      (hright : BuiltOver p right) : BuiltOver p (.apply op left right)

namespace BuiltOver

variable {p : Location → Prop} {e part : Expr}

/-- A property of all leaves that merging keeps is one of every tree. So an ordered tree
on lines of a file comes from such leaves. -/
theorem location (h : BuiltOver p e) (hmerge : ∀ a b, p a → p b → p (a.merge b)) :
    p e.location := by
  induction h with
  | name h => exact h
  | literal h => exact h
  | apply _ _ ihleft ihright => exact hmerge _ _ ihleft ihright

/-- Every node is the root of a tree built in the same way. The induction is on how the
tree is built, and a node is the root or below one of its operands. So what is shown of
built trees holds at any place in a tree. -/
theorem of_mem_postorder (h : BuiltOver p e) (hpart : part ∈ e.postorder) : BuiltOver p part := by
  induction h with
  | name h =>
      obtain rfl := List.mem_singleton.mp hpart
      exact .name h
  | literal h =>
      obtain rfl := List.mem_singleton.mp hpart
      exact .literal h
  | @apply op left right hleft hright ihleft ihright =>
      rw [Expr.apply, postorder, List.mem_append, List.mem_append, List.mem_singleton] at hpart
      -- hpart) | rfl | A node of an operation is in the left operand, in the right one, or it
      -- is the root.
      obtain (hpart | hpart) | rfl := hpart
      · exact ihleft hpart
      · exact ihright hpart
      · exact .apply hleft hright

/-- A tree covers each of its nodes, over any number of operations between them. An
operation covers its operands as it is merged from them, and covering is transitive. The
tree has to be built, because a location of an operation could be anything otherwise. -/
theorem covers (h : BuiltOver p e) (hpart : part ∈ e.postorder) :
    e.location.Covers part.location := by
  induction h with
  | name h =>
      obtain rfl := List.mem_singleton.mp hpart
      exact .refl _
  | literal h =>
      obtain rfl := List.mem_singleton.mp hpart
      exact .refl _
  | @apply op left right hleft hright ihleft ihright =>
      rw [Expr.apply, postorder, List.mem_append, List.mem_append, List.mem_singleton] at hpart
      -- hpart) | rfl | What an operand covers is covered by the operation too.
      obtain (hpart | hpart) | rfl := hpart
      · exact (Location.covers_merge_left _ _).trans (ihleft hpart)
      · exact (Location.covers_merge_right _ _).trans (ihright hpart)
      · exact .refl _

end BuiltOver

end Parsed.Expr

namespace SourceFile

variable {f : SourceFile}

/-- In a tree that is built from ordered leaves on lines of the file, the range of an
operation contains the ranges of all that is below it. The operation covers all of this,
so `byteRange?_of_covers` applies. -/
theorem byteRange?_operation {tree left right : Parsed.Expr} {op : Parsed.Operator} {location : Location}
    (htree : tree.BuiltOver fun leaf => leaf.Ordered ∧ f.HasLinesOf leaf)
    (hmem : .binary op left right location ∈ tree.postorder) :
    ∃ range, f.byteRange? location = some range ∧
      ∀ part ∈ left.postorder ++ right.postorder,
        ∃ inner, f.byteRange? part.location = some inner ∧ range.Contains inner := by
  -- Being ordered and on lines of the file is a property that merging keeps.
  have hinside : ∀ {e : Parsed.Expr},
      (e.BuiltOver fun leaf => leaf.Ordered ∧ f.HasLinesOf leaf) →
        e.location.Ordered ∧ f.HasLinesOf e.location :=
    fun he => he.location fun _ b ha hb => ⟨ha.1.merge b, ha.2.merge hb.2⟩
  have hoperation := htree.of_mem_postorder hmem
  obtain ⟨hordered, hlines⟩ := hinside hoperation
  have hrange := byteRange?_eq_of_ordered hordered hlines
  refine ⟨_, hrange, ?_⟩
  intro part hpart
  have hbelow : part ∈ (Parsed.Expr.binary op left right location).postorder :=
    List.mem_append_left _ hpart
  exact byteRange?_of_covers (hoperation.covers hbelow)
    (hinside (hoperation.of_mem_postorder hbelow)).1 hrange

/-- Two ordered locations with ranges have, merged, the least range that contains both.
So a complaint about an operation is shown at a range that contains the ranges of all
its operands, if these are built from ordered leaves on lines of the file, and no
location has a range that fails to contain the range of an ordered location that it
covers.

All parts rest on the two ends of a range growing with the positions they come from, on
the lines that the file has (`monotoneOn_byteOf`). Columns may be zero or past the end
of their line. -/
theorem byteRange?_follows_merge (f : SourceFile) :
    (∀ (a b : Location) (rangeA rangeB : ByteRange), a.Ordered → b.Ordered →
      f.byteRange? a = some rangeA → f.byteRange? b = some rangeB →
        ∃ range, f.byteRange? (a.merge b) = some range ∧ range.IsHull rangeA rangeB) ∧
    (∀ (tree left right : Parsed.Expr) (op : Parsed.Operator) (location : Location) (e : Diagnostic),
      (tree.BuiltOver fun leaf => leaf.Ordered ∧ f.HasLinesOf leaf) →
      .binary op left right location ∈ tree.postorder → e.location = location →
        ∃ range, f.byteRange? e.location = some range ∧
          ∀ part ∈ left.postorder ++ right.postorder,
            ∃ inner, f.byteRange? part.location = some inner ∧ range.Contains inner) ∧
    (∀ (a b : Location) (range : ByteRange), a.Covers b → b.Ordered →
      f.byteRange? a = some range →
        ∃ inner, f.byteRange? b = some inner ∧ range.Contains inner) := by
  refine ⟨?_, ?_, ?_⟩
  · intro a b rangeA rangeB ha hb hrangeA hrangeB
    exact ⟨_, byteRange?_merge ha hb hrangeA hrangeB, ByteRange.isHull_min_max _ _⟩
  · intro tree left right op location e htree hmem he
    rw [he]
    exact byteRange?_operation htree hmem
  · intro a b range hcovers hb hrange
    exact byteRange?_of_covers hcovers hb hrange

/-- The sum of a name and one on the next line, whose last column is past the end of
that line. -/
def acrossLines : Parsed.Expr :=
  .apply .add (.name "y" (.onLine 1 5 5)) (.name "z" (.onLine 2 3 40))

/-- The range of the sum goes from the first byte of its first operand to the end of the second
line. -/
theorem byteRange?_acrossLines :
    (∃ range, (ofText "sum.f90" "x = y + &\n  z\n").byteRange? acrossLines.location = some range ∧
      range.IsHull ⟨4, 5⟩ ⟨12, 14⟩) ∧
    (∃ range, (ofText "sum.f90" "x = y + &\n  z\n").byteRange? acrossLines.location = some range ∧
      ∀ part ∈ [Parsed.Expr.name "y" (.onLine 1 5 5)] ++ [.name "z" (.onLine 2 3 40)],
        ∃ inner, (ofText "sum.f90" "x = y + &\n  z\n").byteRange? part.location = some inner ∧
          range.Contains inner) ∧
    (∃ inner, (ofText "sum.f90" "x = y + &\n  z\n").byteRange? (.onLine 2 0 3) = some inner ∧
      ByteRange.Contains ⟨4, 14⟩ inner) := by
  have hfollows := byteRange?_follows_merge (ofText "sum.f90" "x = y + &\n  z\n")
  refine ⟨?_, ?_, ?_⟩
  · exact hfollows.1 (.onLine 1 5 5) (.onLine 2 3 40) _ _ (by decide) (by decide) (by decide)
      (by decide)
  · exact hfollows.2.1 acrossLines (.name "y" (.onLine 1 5 5)) (.name "z" (.onLine 2 3 40)) .add
      acrossLines.location ⟨.operandMismatch (.integer 8) (.real 4), acrossLines.location⟩
      (.apply (.name (by decide)) (.name (by decide))) (by decide) rfl
  · exact hfollows.2.2 acrossLines.location _ _ (by decide) (by decide) (by decide)

end SourceFile

end FortranFront
