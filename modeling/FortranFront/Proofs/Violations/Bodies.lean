import FortranFront.Proofs.Resolves

/-!
# `FortranFront.Proofs.Violations.Bodies`: all that is wrong with the bodies of a program

Whether a node of a body is legal can be read off the node and its operands. A
name must be bound to a variable of the routine's scope. An operation must not
join an integer leaf with anything else, because every operation is real, so only
a leaf can be an integer. Where it is asked for, an assignment must not either.
None of this looks deeper into a tree than one step.

* `resolutionViolations` lists what is wrong with the bodies of a parsed program,
  in the order of the text and operands before their operation. All lookups are
  made in the typed program as it was before the pass.
* `complaint?_resolve`: resolution reports the first of these, and succeeds if
  there is none. It does not matter which program the typed one was declared from
  and what was filled into it before.
-/

set_option autoImplicit false

namespace FortranFront.Analysis

section Nodes

variable (table : SymbolTable) (scope : ScopeId)

/-- The type of an expression in a scope, read off its root. A name without a variable
has none. It is a violation itself and comes before the operations that it is an operand
of, so what stands here for it is never reported. -/
def typeIn : Parsed.Expr → ScalarType
  | .name id _ => ((table.findVariable? scope id).map fun found => found.2.type).getD (.real 4)
  | .literal _ _ => .integer 8
  | .binary _ _ _ _ => .real 4

/-- The expression is a literal, or a name whose variable is an integer. Operations are
left out, because `operationType` is real. -/
def IsIntegerLeaf : Parsed.Expr → Prop
  | .name id _ => ∃ found ∈ table.findVariable? scope id, found.2.type.family = .integer
  | .literal _ _ => True
  | .binary _ _ _ _ => False

instance : DecidablePred (IsIntegerLeaf table scope)
  | .name id _ =>
      inferInstanceAs (Decidable
        (∃ found ∈ table.findVariable? scope id, found.2.type.family = .integer))
  | .literal _ _ => inferInstanceAs (Decidable True)
  | .binary _ _ _ _ => inferInstanceAs (Decidable False)

/-- Exactly one of two expressions is a leaf of integer type. This is what it comes to,
with two families, that the types of two operands disagree (`sameFamily_typeIn`). -/
def Mixed (left right : Parsed.Expr) : Prop :=
  (IsIntegerLeaf table scope left ∧ ¬ IsIntegerLeaf table scope right) ∨
    (¬ IsIntegerLeaf table scope left ∧ IsIntegerLeaf table scope right)

instance (left right : Parsed.Expr) : Decidable (Mixed table scope left right) :=
  inferInstanceAs (Decidable (_ ∨ _))

/-- What is wrong with a node, apart from what is wrong below it. It looks at the
operands only to see whether they are integer leaves, and is not recursive. -/
def nodeViolation? : Parsed.Expr → Option Diagnostic
  | .name id location =>
      if (table.findVariable? scope id).isNone then some ⟨.undefinedSymbol id, location⟩ else none
  | .literal _ _ => none
  | .binary _ left right location =>
      if Mixed table scope left right then
        some ⟨.operandMismatch (typeIn table scope left) (typeIn table scope right), location⟩
      else none

/-- What is wrong with the nodes of an assignment, those of its target first, and then with
the assignment itself. -/
def assignmentViolations (options : Options) (a : Parsed.Assignment) : List Diagnostic :=
  a.postorder.filterMap (nodeViolation? table scope) ++
    if options.checkAssignmentTypes = true ∧ Mixed table scope a.target a.value then
      [⟨.assignmentMismatch (typeIn table scope a.target) (typeIn table scope a.value),
        a.location⟩]
    else []

end Nodes

/-- What is wrong with the body of a parsed routine. Its names live in the scope of the
routine that bears its name, and if there is none nothing in the body can be judged.
Then the routine itself is blamed. -/
def bodyViolations (options : Options) (p : Typed.Program) (r : Parsed.Routine) :
    List Diagnostic :=
  match p.findRoutine? r.name with
  | none => [⟨.undefinedSymbol r.name, r.location⟩]
  | some (_, routine) => r.body.flatMap (assignmentViolations p.table routine.scope options)

/-- What is wrong with the bodies of a parsed program, in the order of its routines. All
of them are judged in one and the same program, although a pass changes it from routine
to routine. That this makes no difference is part of what `Filling.outcome_run` says. -/
def resolutionViolations (options : Options) (p : Typed.Program) (t : Parsed.Program) :
    List Diagnostic :=
  t.routines.flatMap (bodyViolations options p)

/-! ### Types -/

variable {table : SymbolTable} {scope : ScopeId}

/-- Only leaves are integers. A name without a variable counts as real here, which does
no harm, as it is a violation itself. -/
theorem family_typeIn (e : Parsed.Expr) :
    (typeIn table scope e).family = .integer ↔ IsIntegerLeaf table scope e := by
  cases e with
  | name id location =>
      cases h : table.findVariable? scope id <;> simp [typeIn, IsIntegerLeaf, h, ScalarType.real]
  | literal value location => simp [typeIn, IsIntegerLeaf, ScalarType.integer]
  | binary op left right location => simp [typeIn, IsIntegerLeaf, ScalarType.real]

/-- There are two families, so types agree in it unless exactly one is an integer type.
With a third family `Mixed` would no longer say enough. -/
theorem sameFamily_typeIn (left right : Parsed.Expr) :
    (typeIn table scope left).SameFamily (typeIn table scope right) ↔
      ¬ Mixed table scope left right := by
  have htwo : ∀ a b : Family, a = b ↔ (a = .integer ↔ b = .integer) := by
    intro a b
    cases a <;> cases b <;> simp
  unfold ScalarType.SameFamily Mixed
  rw [htwo, family_typeIn, family_typeIn]
  tauto

-- A sum of integers is no integer, so it cannot be added to one.
example (table : SymbolTable) (scope : ScopeId) (location : Location) :
    Mixed table scope (.literal 1 location)
      (.binary .add (.literal 1 location) (.literal 2 location) location) := by
  simp [Mixed, IsIntegerLeaf]

/-- A typed expression has the type that can be read off the parsed one. So a check on
typed operands can be made before they are resolved. -/
theorem Resolves.type_eq {e : Parsed.Expr} {e' : Typed.Expr} (h : Resolves table scope e e') :
    e'.type = typeIn table scope e := by
  cases h with
  | name hfound => simp [Typed.Expr.type, typeIn, hfound]
  | literal => rfl
  | binary _ _ _ => rfl

/-! ### Complaints -/

/-- The resolution of an expression reports its first violation. The induction is on the
expression. The violations of the operands come first in `postorder`, and these are the
ones that resolution meets first. -/
theorem complaint?_resolveExpr (e : Parsed.Expr) :
    complaint? (resolveExpr table scope e).outcome =
      (e.postorder.filterMap (nodeViolation? table scope)).head? := by
  induction e with
  | name id location =>
      cases h : table.findVariable? scope id <;>
        simp [resolveExpr, resolveName, Parsed.Expr.postorder, nodeViolation?, h,
          Defect.blameNone, Except.bind]
  | literal value location => rfl
  | binary op left right location ihl ihr =>
      simp only [resolveExpr, Traced.outcome_bind, Traced.outcome_lift, Traced.outcome_pure,
        Parsed.Expr.postorder, List.filterMap_append, List.append_assoc]
      refine complaint?_bind ihl fun l hl => complaint?_bind ihr fun r hr => ?_
      -- Both operands are legal, so the check sees the types that the parsed ones show.
      have htypel := (resolveExpr_eq_ok_iff.mp hl).type_eq
      have htyper := (resolveExpr_eq_ok_iff.mp hr).type_eq
      rw [htypel, htyper]
      by_cases hmixed : Mixed table scope left right
      · simp [nodeViolation?, hmixed, sameFamily_typeIn, Defect.blameUnless, Except.bind]
      · simp [nodeViolation?, hmixed, sameFamily_typeIn, Defect.blameUnless, Except.bind]

/-- The resolution of an assignment reports its first violation. The target comes before
the value, and the assignment itself after both. The check of the sides is reached only
if both are legal, and then `type_eq` turns their types into what `assignmentViolations`
reads off the parsed sides. -/
theorem complaint?_resolveAssignment (options : Options) (a : Parsed.Assignment) :
    complaint? (resolveAssignment options table scope a).outcome =
      (assignmentViolations table scope options a).head? := by
  simp only [resolveAssignment, Traced.outcome_bind, Traced.outcome_lift, Traced.outcome_pure,
    assignmentViolations, Parsed.Assignment.postorder, List.filterMap_append, List.append_assoc]
  refine complaint?_bind (complaint?_resolveExpr a.target) fun target ht =>
    complaint?_bind (complaint?_resolveExpr a.value) fun value hv => ?_
  -- Both sides are legal, so the check sees the types that the parsed ones show.
  have htarget := (resolveExpr_eq_ok_iff.mp ht).type_eq
  have hvalue := (resolveExpr_eq_ok_iff.mp hv).type_eq
  rw [htarget, hvalue]
  -- The check is made, and can fail, only where the options ask for it.
  by_cases hstrict : options.checkAssignmentTypes = true
  · by_cases hmixed : Mixed table scope a.target a.value
    · simp [hstrict, hmixed, sameFamily_typeIn, Defect.blameUnless, Except.bind]
    · simp [hstrict, hmixed, sameFamily_typeIn, Defect.blameUnless, Except.bind]
  · simp [hstrict, Defect.blameUnless, Except.bind]

/-- What a pass would write into a routine cannot be planned if its body has a
violation, and the first of them is the reason. A routine that is not found has one
violation, so the two cases of a plan agree with the two cases of `bodyViolations`. -/
theorem complaint?_plan_bodies (options : Options) (p : Typed.Program) (r : Parsed.Routine) :
    complaint? ((bodies options).plan p r) = (bodyViolations options p r).head? := by
  unfold Filling.plan findRoutine bodyViolations
  cases h : p.findRoutine? r.name with
  | none => rfl
  | some found =>
      obtain ⟨id, routine⟩ := found
      show complaint? ((((bodies options).compute p.table routine.scope r).outcome).map _) = _
      rw [complaint?_map, outcome_compute_bodies]
      exact complaint?_mapM fun a _ => complaint?_resolveAssignment options a

/-- Resolving the bodies of a parsed program into a typed one reports the first
violation of the bodies, and succeeds exactly if there is none. The typed program may
have been declared from another parsed program, and bodies and parameters may have been
filled in before.

The pass writes to the program as it goes, but it ends as the plans made at its start do
(`Filling.outcome_run`). So the violations of each routine may be read in the program
before the pass, and `complaint?_plan_bodies` says which of them a plan reports. -/
theorem complaint?_resolve (options : Options) (t : Parsed.Program) (p : Typed.Program) :
    complaint? (resolve options t p).result.outcome =
      (resolutionViolations options p t).head? := by
  rw [resolve_eq_run, Filling.outcome_run]
  refine complaint?_forM fun r _ => ?_
  show complaint? (((bodies options).plan p r).map _) = _
  rw [complaint?_map]
  exact complaint?_plan_bodies options p r

end FortranFront.Analysis
