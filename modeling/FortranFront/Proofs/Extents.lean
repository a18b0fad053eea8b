import FortranFront.Proofs.Erasure
import FortranFront.Proofs.LeastCover
import FortranFront.Proofs.Merging
import FortranFront.Proofs.Mismatches

/-!
# `FortranFront.Proofs.Extents`: the extents of trees, before and after resolution

A tree is built if its operations have no location of their own but reach over their
operands. The location of such a tree is merged from those of its leaves, which may stand
anywhere, so it is the least that covers them. It knows nothing else of the tree. Resolution
copies every location, so operations go on to cover their operands in the typed tree, and a
complaint about two operands covers both.

* `Parsed.Expr.BuiltOver.mergedFrom`: the extent of a built tree is merged from its leaves.
* `Analysis.Resolves.nested`: built trees are resolved to nested ones.
* `Analysis.keepsExtents_of_analyze`: so the bodies of an analysed program are nested where
  they were built.
* `Analysis.extents_of_built`: all of this, and what it means for a complaint about types.
-/

set_option autoImplicit false

namespace FortranFront

namespace Location

/-- The least location that covers a list of them. It is stated by `Covers` alone,
without the order of `Proofs.LeastCover`. -/
structure IsLeastCover (locations : List Location) (a : Location) : Prop where
  covers : ∀ b ∈ locations, a.Covers b
  least : ∀ outer : Location, (∀ b ∈ locations, outer.Covers b) → outer.Covers a

/-- A list merged in any way is its least cover. -/
theorem MergedFrom.isLeastCover {locations : List Location} {merged : Location}
    (h : MergedFrom locations merged) : IsLeastCover locations merged where
  covers _ hb := h.isLUB.1 hb
  least _ houter := h.isLUB.2 fun b hb => houter b hb

end Location

/-! ### Parsed trees -/

namespace Parsed.Expr

/-- The locations of the leaves of a tree, from left to right. -/
def leafLocations : Expr → List Location
  | .binary _ left right _ => left.leafLocations ++ right.leafLocations
  | leaf => [leaf.location]

/-- The tree is built from leaves that may stand anywhere. Only its operations are held
to their operands. -/
def Built (e : Expr) : Prop := e.BuiltOver fun _ => True

namespace BuiltOver

variable {p : Location → Prop} {e left right : Expr} {op : Operator} {location : Location}

/-- The operands of a built operation are built, and it reaches over just these. There
is one way to build an operation, and it is `Expr.apply`. -/
theorem of_binary (h : BuiltOver p (.binary op left right location)) :
    BuiltOver p left ∧ BuiltOver p right ∧ location = left.location.merge right.location := by
  generalize htree : Expr.binary op left right location = e at h
  cases h with
  | name _ => cases htree
  | literal _ => cases htree
  | apply hleft hright =>
      cases htree
      exact ⟨hleft, hright, rfl⟩

/-- The extent of a built tree is merged from the locations of its leaves, in groups
that are the operations of the tree. By `MergedFrom.isLUB` it then depends on the set of
these locations alone, so neither their order nor the shape of the tree is seen in
it. -/
theorem mergedFrom (h : BuiltOver p e) : Location.MergedFrom e.leafLocations e.location := by
  induction h with
  | name _ => exact .single _
  | literal _ => exact .single _
  | apply _ _ ihleft ihright => exact ihleft.merge ihright

/-- A built operation covers its operands, whichever of them comes first in the
source. -/
theorem covers_operands (h : BuiltOver p (.binary op left right location)) :
    location.Covers left.location ∧ location.Covers right.location := by
  obtain ⟨-, -, rfl⟩ := h.of_binary
  exact ⟨Location.covers_merge_left _ _, Location.covers_merge_right _ _⟩

end BuiltOver

/-- Operations may be regrouped. What they are does not matter. -/
theorem location_apply_assoc (outer inner outer' inner' : Operator) (a b c : Expr) :
    (apply outer (apply inner a b) c).location =
      (apply outer' a (apply inner' b c)).location :=
  sup_assoc a.location b.location c.location

/-- Operands may be swapped. -/
theorem location_apply_comm (op op' : Operator) (left right : Expr) :
    (apply op left right).location = (apply op' right left).location :=
  sup_comm left.location right.location

end Parsed.Expr

/-- An assignment that reaches over just its two sides covers them. -/
theorem Parsed.Assignment.covers_sides {a : Parsed.Assignment} (h : a = .of a.target a.value) :
    a.location.Covers a.target.location ∧ a.location.Covers a.value.location := by
  rw [h]
  exact ⟨Location.covers_merge_left _ _, Location.covers_merge_right _ _⟩

/-! ### Typed trees -/

/-- Every operation of a typed tree covers its operands. Of a leaf nothing is asked. -/
def Typed.Expr.Nested (e : Typed.Expr) : Prop :=
  ∀ op left right type location, .binary op left right type location ∈ e.postorder →
    location.Covers left.location ∧ location.Covers right.location

namespace Analysis

open Typed (Program)

variable {options : Options} {t : Parsed.Program} {q : Program} {table : SymbolTable}
  {scope : ScopeId}

/-- Resolution leaves an expression where it stands. So extents are the same before and
after. -/
theorem Resolves.location_eq {e : Parsed.Expr} {e' : Typed.Expr} (h : Resolves table scope e e') :
    e'.location = e.location := by
  cases h with
  | name _ => rfl
  | literal => rfl
  | binary _ _ _ => rfl

/-- What a built tree is resolved to is nested. The induction is on the resolution, and
each operation of the typed tree stands where the parsed one stood. So it covers its
operands, since the parsed one did, by `BuiltOver.covers_operands`. -/
theorem Resolves.nested {e : Parsed.Expr} {e' : Typed.Expr} (h : Resolves table scope e e')
    (hbuilt : e.Built) : e'.Nested := by
  induction h with
  | name _ =>
      intro op left right type location hmem
      cases List.mem_singleton.mp hmem
  | literal =>
      intro op left right type location hmem
      cases List.mem_singleton.mp hmem
  | binary hleft hright _ ihl ihr =>
      obtain ⟨hbuiltLeft, hbuiltRight, -⟩ := hbuilt.of_binary
      intro op left right type location hmem
      rw [Typed.Expr.postorder, List.mem_append, List.mem_append, List.mem_singleton] at hmem
      -- An operation of the typed tree is one of an operand or the tree itself.
      rcases hmem with (hmem | hmem) | hroot
      · exact ihl hbuiltLeft _ _ _ _ _ hmem
      · exact ihr hbuiltRight _ _ _ _ _ hmem
      · cases hroot
        rw [hleft.location_eq, hright.location_eq]
        exact hbuilt.covers_operands

/-- A typed assignment is nested wherever the parsed one was built. Each side is taken
by itself, so a tree from elsewhere on one side does not spoil the other. -/
structure KeepsExtents (a : Parsed.Assignment) (a' : Typed.Assignment) : Prop where
  target : a.target.Built → a'.target.Nested
  value : a.value.Built → a'.value.Nested
  sides : a = .of a.target a.value →
    a'.location.Covers a'.target.location ∧ a'.location.Covers a'.value.location

/-- This is so for every assignment that is resolved, under either option. -/
theorem ResolvesAssignment.keepsExtents {a : Parsed.Assignment} {a' : Typed.Assignment}
    (h : ResolvesAssignment options table scope a a') : KeepsExtents a a' where
  target := h.target.nested
  value := h.value.nested
  sides hof := by
    rw [h.location, h.target.location_eq, h.value.location_eq]
    exact a.covers_sides hof

/-- The bodies of an analysed program are those of the parsed one, resolved in the
scopes of their routines. The table is that of the declared program. -/
theorem bodies_of_analyze (h : (analyze options t).outcome = .ok q) :
    ∃ table : SymbolTable, List.Forall₂ (fun r routine =>
      List.Forall₂ (ResolvesAssignment options table routine.scope) r.body routine.body)
        t.routines q.routines := by
  obtain ⟨p, hp, hresolve, hlink, rfl⟩ := analyze_eq_ok_iff.mp h
  have hdeclared := declaredFrom_of_declare hp
  have hitems : (link t (resolve options t p).program).program.items = p.items :=
    items_afterSession p [.resolve options t, .link t]
  refine ⟨p.table, hdeclared.forall₂_routines hitems ?_⟩
  intro r hr id hid
  obtain ⟨first, scope, body, linked, -, hbody, -, hsymbol⟩ :=
    hdeclared.exists_filled hresolve hlink hr hid
  exact ⟨_, hsymbol, hbody⟩

/-- So all extents are kept, in all bodies of the program. `bodies_of_analyze` pairs the
statements of each routine with what they were resolved to, and
`ResolvesAssignment.keepsExtents` is what holds of such a pair. -/
theorem keepsExtents_of_analyze (h : (analyze options t).outcome = .ok q) :
    List.Forall₂ (fun r routine => List.Forall₂ KeepsExtents r.body routine.body)
      t.routines q.routines := by
  obtain ⟨table, hbodies⟩ := bodies_of_analyze h
  exact hbodies.imp fun r routine hbody => hbody.imp fun a a' ha => ha.keepsExtents

/-! ### Built trees in programs -/

/-- The location of a built tree is the least that covers the locations of its leaves, whatever
these are. It is the same for all trees with the same leaves, however they are grouped and ordered,
and every node of the tree covers all below it. An assignment of two built sides has the least
location that covers the leaves of both.

In an analysed program an operation of a tree that was built covers its operands, and so does an
assignment that was made from its sides. If the analysis ends with a mismatch of two types, then
these are the types of the operands of an operation, or of the sides of an assignment, at the
location of the complaint. It covers both, if the tree was built or the assignment made from its
sides. -/
theorem extents_of_built :
    (∀ e : Parsed.Expr, e.Built → Location.IsLeastCover e.leafLocations e.location ∧
      ∀ part ∈ e.postorder, ∀ below ∈ part.postorder, part.location.Covers below.location) ∧
    (∀ e e' : Parsed.Expr, e.Built → e'.Built →
      (∀ leaf, leaf ∈ e.leafLocations ↔ leaf ∈ e'.leafLocations) → e.location = e'.location) ∧
    (∀ (outer inner outer' inner' : Parsed.Operator) (a b c : Parsed.Expr),
      (Parsed.Expr.apply outer (.apply inner a b) c).location =
          (Parsed.Expr.apply outer' a (.apply inner' b c)).location ∧
        (Parsed.Expr.apply outer a b).location = (Parsed.Expr.apply outer' b a).location) ∧
    (∀ target value : Parsed.Expr, target.Built → value.Built →
      Location.IsLeastCover (target.leafLocations ++ value.leafLocations)
        (Parsed.Assignment.of target value).location) ∧
    (∀ (options : Options) (t : Parsed.Program) (q : Program),
      (analyze options t).outcome = .ok q →
        List.Forall₂ (fun r routine => List.Forall₂ KeepsExtents r.body routine.body)
          t.routines q.routines) ∧
    (∀ (options : Options) (t : Parsed.Program) (leftType rightType : ScalarType)
      (location : Location),
      (analyze options t).outcome = .error ⟨.operandMismatch leftType rightType, location⟩ →
        ∃ r ∈ t.routines, ∃ a ∈ r.body, ∃ tree, (tree = a.target ∨ tree = a.value) ∧
          ∃ op left right, .binary op left right location ∈ tree.postorder ∧
            ClashIn t r left right leftType rightType ∧
            (tree.Built → location.Covers left.location ∧ location.Covers right.location)) ∧
    (∀ (options : Options) (t : Parsed.Program) (targetType valueType : ScalarType)
      (location : Location),
      (analyze options t).outcome = .error ⟨.assignmentMismatch targetType valueType, location⟩ →
        ∃ r ∈ t.routines, ∃ a ∈ r.body, a.location = location ∧
          ClashIn t r a.target a.value targetType valueType ∧
          (a = .of a.target a.value →
            location.Covers a.target.location ∧ location.Covers a.value.location)) := by
  refine ⟨?_, ?_, ?_, ?_, ?_, ?_, ?_⟩
  · intro e he
    refine ⟨he.mergedFrom.isLeastCover, ?_⟩
    intro part hpart below hbelow
    exact (he.of_mem_postorder hpart).covers hbelow
  · intro e e' he he' hsame
    exact he.mergedFrom.eq hsame he'.mergedFrom
  · intro outer inner outer' inner' a b c
    exact ⟨Parsed.Expr.location_apply_assoc outer inner outer' inner' a b c,
      Parsed.Expr.location_apply_comm outer outer' a b⟩
  · intro target value htarget hvalue
    exact (htarget.mergedFrom.merge hvalue.mergedFrom).isLeastCover
  · intro options t q h
    exact keepsExtents_of_analyze h
  · intro options t leftType rightType location h
    obtain ⟨r, hr, a, ha, tree, htree, op, left, right, hmem, hclash⟩ :=
      exists_operation_of_mismatch h
    refine ⟨r, hr, a, ha, tree, htree, op, left, right, hmem, hclash, ?_⟩
    intro hbuilt
    exact (hbuilt.of_mem_postorder hmem).covers_operands
  · intro options t targetType valueType location h
    obtain ⟨r, hr, a, ha, rfl, hclash⟩ := exists_sides_of_mismatch h
    exact ⟨r, hr, a, ha, rfl, hclash, a.covers_sides⟩

/-- The sum of a name that ends before it starts and a product. The literal stands
nowhere, which counts as line zero. -/
def spreadOut : Parsed.Expr :=
  .apply .add (.name "x" (.onLine 2 9 3))
    (.apply .mul (.literal 1 .nowhere) (.name "x" (.onLine 4 1 1)))

/-- The same with a name in place of the literal. -/
def spreadOutNames : Parsed.Expr :=
  .apply .add (.name "x" (.onLine 2 9 3))
    (.apply .mul (.name "x" .nowhere) (.name "x" (.onLine 4 1 1)))

/-- A subroutine that assigns a value to a real variable. -/
def assigning (value : Parsed.Expr) : Parsed.Program where
  routines := [
    { form := .subroutine
      name := "foo"
      parameters := []
      declarations := [⟨"x", "real", [], .onLine 2 3 11⟩]
      body := [.of (.name "x" (.onLine 3 3 3)) value]
      binding := none
      location := .onLine 1 1 14 }]

/-- The extent of such a sum goes from nowhere to the last of its leaves. With names alone it is
accepted, and its extents are kept. With the literal the product is to blame, and the literal alone
cannot be assigned under the strict check. -/
theorem extents_spreadOut :
    Location.IsLeastCover [.onLine 2 9 3, .nowhere, .onLine 4 1 1] spreadOut.location ∧
    spreadOut.location = spreadOutNames.location ∧
    (∃ q, (analyze {} (assigning spreadOutNames)).outcome = .ok q ∧
      List.Forall₂ (fun r routine => List.Forall₂ KeepsExtents r.body routine.body)
        (assigning spreadOutNames).routines q.routines) ∧
    (∃ op left right, .binary op left right ⟨⟨0, 0⟩, ⟨4, 1⟩⟩ ∈ spreadOut.postorder ∧
      Location.Covers ⟨⟨0, 0⟩, ⟨4, 1⟩⟩ left.location ∧
      Location.Covers ⟨⟨0, 0⟩, ⟨4, 1⟩⟩ right.location) ∧
    (analyze ⟨true⟩ (assigning (.literal 1 .nowhere))).outcome =
        .error ⟨.assignmentMismatch (.real 4) (.integer 8), ⟨⟨0, 0⟩, ⟨3, 3⟩⟩⟩ ∧
      Location.Covers ⟨⟨0, 0⟩, ⟨3, 3⟩⟩ (.onLine 3 3 3) ∧
      Location.Covers ⟨⟨0, 0⟩, ⟨3, 3⟩⟩ .nowhere := by
  -- Each part is the general theorem at one of these programs.
  obtain ⟨hleast, hsame, -, -, hkeeps, hoperation, hsides⟩ := extents_of_built
  have hbuilt : spreadOut.Built :=
    .apply (.name trivial) (.apply (.literal trivial) (.name trivial))
  have hbuiltNames : spreadOutNames.Built :=
    .apply (.name trivial) (.apply (.name trivial) (.name trivial))
  have hstrict : (analyze ⟨true⟩ (assigning (.literal 1 .nowhere))).outcome =
      .error ⟨.assignmentMismatch (.real 4) (.integer 8), ⟨⟨0, 0⟩, ⟨3, 3⟩⟩⟩ := rfl
  refine ⟨(hleast _ hbuilt).1, hsame _ _ hbuilt hbuiltNames fun _ => Iff.rfl,
    ⟨_, rfl, hkeeps {} (assigning spreadOutNames) _ rfl⟩, ?_, hstrict, ?_⟩
  · obtain ⟨r, hr, a, ha, tree, htree, op, left, right, hmem, -, hcovers⟩ :=
      hoperation {} (assigning spreadOut) (.integer 8) (.real 4) ⟨⟨0, 0⟩, ⟨4, 1⟩⟩ rfl
    obtain rfl := List.mem_singleton.mp hr
    obtain rfl := List.mem_singleton.mp ha
    rcases htree with rfl | rfl
    · cases List.mem_singleton.mp hmem
    · exact ⟨op, left, right, hmem, hcovers hbuilt⟩
  · obtain ⟨r, hr, a, ha, -, -, hcovers⟩ := hsides _ _ _ _ _ hstrict
    obtain rfl := List.mem_singleton.mp hr
    obtain rfl := List.mem_singleton.mp ha
    exact hcovers rfl

end Analysis

end FortranFront
