import FortranFront.Proofs.Strictness
import FortranFront.Proofs.Violations.Declarations

/-!
# `FortranFront.Proofs.Mismatches`: where a mismatch of types is found

A complaint about two families of numbers comes from the bodies. It is about an operation in
a tree of some assignment, or about an assignment itself. Both operands are legal there, and
in the scope of their routine they have the two types that the complaint names.

* `resolveExpr_eq_error`: why the resolution of an expression fails.
* `resolveAssignment_eq_error`: why that of an assignment fails.
* `exists_assignment_of_mismatch`: if the analysis ends with a mismatch, then some assignment
  cannot be resolved for this reason.
* `exists_operation_of_mismatch`, `exists_sides_of_mismatch`: so there is an operation or an
  assignment at the location of the complaint whose operands clash.
-/

set_option autoImplicit false

namespace FortranFront

/-- A complaint about two families of numbers. The two kinds are told apart by what is
compared, the operands of an operation or the sides of an assignment. -/
def Defect.IsMismatch : Defect → Prop
  | .operandMismatch _ _ => True
  | .assignmentMismatch _ _ => True
  | _ => False

namespace Analysis

open Typed (Program)

/-! ### Expressions and assignments -/

/-- Two expressions are legal in a scope, where they have types of two families. Legal
means that they are resolved to something there, so that they have types at all. -/
structure Clash (table : SymbolTable) (scope : ScopeId) (left right : Parsed.Expr)
    (leftType rightType : ScalarType) : Prop where
  left : ∃ left', Resolves table scope left left' ∧ left'.type = leftType
  right : ∃ right', Resolves table scope right right' ∧ right'.type = rightType
  families : ¬ leftType.SameFamily rightType

/-- An expression has an operation at a location whose operands clash. The operation may
be anywhere in the tree. -/
def HasClash (table : SymbolTable) (scope : ScopeId) (e : Parsed.Expr) (location : Location)
    (leftType rightType : ScalarType) : Prop :=
  ∃ op left right, .binary op left right location ∈ e.postorder ∧
    Clash table scope left right leftType rightType

variable {options : Options} {table : SymbolTable} {scope : ScopeId}

/-- The operands of an operation are among its nodes, so a clash in one of them is a
clash in the whole. -/
theorem HasClash.of_operand {op : Parsed.Operator} {left right part : Parsed.Expr}
    {location place : Location} {leftType rightType : ScalarType}
    (hpart : part = left ∨ part = right) (h : HasClash table scope part place leftType rightType) :
    HasClash table scope (.binary op left right location) place leftType rightType := by
  obtain ⟨op', left', right', hmem, hclash⟩ := h
  refine ⟨op', left', right', List.mem_append_left _ (List.mem_append.mpr ?_), hclash⟩
  rcases hpart with rfl | rfl
  · exact .inl hmem
  · exact .inr hmem

/-- The resolution of an expression fails for a name or for an operation whose operands
clash. The induction is on the parsed tree, whose operands are resolved before the
operation is checked. If an operand fails, its clash is carried to the whole by
`HasClash.of_operand`. -/
theorem resolveExpr_eq_error {e : Parsed.Expr} {d : Diagnostic}
    (h : (resolveExpr table scope e).outcome = .error d) :
    (∃ id, d.defect = .undefinedSymbol id) ∨
      ∃ leftType rightType, d.defect = .operandMismatch leftType rightType ∧
        HasClash table scope e d.location leftType rightType := by
  induction e with
  | name id location =>
      simp only [resolveExpr, resolveName, Traced.outcome_bind, Traced.outcome_lift,
        Traced.outcome_log, Traced.outcome_pure] at h
      rcases bind_eq_error_iff.mp h with hfound | ⟨_, -, hlast⟩
      · exact .inl ⟨id, congrArg Diagnostic.defect (blameNone_eq_error_iff.mp hfound).2⟩
      · cases hlast
  | literal value location => cases h
  | binary op left right location ihl ihr =>
      simp only [resolveExpr, Traced.outcome_bind, Traced.outcome_lift, Traced.outcome_pure] at h
      -- The left operand fails, or else the right one, or else the check of both.
      rcases bind_eq_error_iff.mp h with hl | ⟨left', hl, hrest⟩
      · rcases ihl hl with hname | ⟨leftType, rightType, hdefect, hclash⟩
        · exact .inl hname
        · exact .inr ⟨leftType, rightType, hdefect, hclash.of_operand (.inl rfl)⟩
      · rcases bind_eq_error_iff.mp hrest with hr | ⟨right', hr, hcheck⟩
        · rcases ihr hr with hname | ⟨leftType, rightType, hdefect, hclash⟩
          · exact .inl hname
          · exact .inr ⟨leftType, rightType, hdefect, hclash.of_operand (.inr rfl)⟩
        · rcases bind_eq_error_iff.mp hcheck with hfamily | ⟨_, -, hlast⟩
          · obtain ⟨hfamilies, rfl⟩ := blameUnless_eq_error_iff.mp hfamily
            have hclash : Clash table scope left right left'.type right'.type :=
              ⟨⟨left', resolveExpr_eq_ok_iff.mp hl, rfl⟩,
                ⟨right', resolveExpr_eq_ok_iff.mp hr, rfl⟩, hfamilies⟩
            exact .inr ⟨_, _, rfl, op, left, right, List.mem_append_right _ List.mem_cons_self,
              hclash⟩
          · cases hlast

/-- The resolution of an assignment fails in one of its sides, or because the sides
clash. The three cases are the three steps of `resolveAssignment`. In the last of them
both sides have been resolved, so they are legal. -/
theorem resolveAssignment_eq_error {a : Parsed.Assignment} {d : Diagnostic}
    (h : (resolveAssignment options table scope a).outcome = .error d) :
    (resolveExpr table scope a.target).outcome = .error d ∨
      (resolveExpr table scope a.value).outcome = .error d ∨
      ∃ targetType valueType, d = ⟨.assignmentMismatch targetType valueType, a.location⟩ ∧
        Clash table scope a.target a.value targetType valueType := by
  simp only [resolveAssignment, Traced.outcome_bind, Traced.outcome_lift,
    Traced.outcome_pure] at h
  -- The target fails, or else the value, or else the check of both.
  rcases bind_eq_error_iff.mp h with ht | ⟨target, ht, hrest⟩
  · exact .inl ht
  · rcases bind_eq_error_iff.mp hrest with hv | ⟨value, hv, hcheck⟩
    · exact .inr (.inl hv)
    · rcases bind_eq_error_iff.mp hcheck with hfamily | ⟨_, -, hlast⟩
      · obtain ⟨hfamilies, rfl⟩ := blameUnless_eq_error_iff.mp hfamily
        refine .inr (.inr ⟨target.type, value.type, rfl, ?_⟩)
        exact ⟨⟨target, resolveExpr_eq_ok_iff.mp ht, rfl⟩,
          ⟨value, resolveExpr_eq_ok_iff.mp hv, rfl⟩, fun hsame => hfamilies fun _ => hsame⟩
      · cases hlast

/-! ### Whole programs -/

variable {t : Parsed.Program} {p : Program} {e : Diagnostic}

/-- A declaration has a wrong type or wrong intents, but no mismatch. All violations
that it can have are listed by `typeViolations` and `intentViolations`. -/
theorem not_isMismatch_of_mem_variableViolations {d : Parsed.Declaration}
    (h : e ∈ variableViolations d) : ¬ e.defect.IsMismatch := by
  rw [variableViolations, List.mem_append, List.mem_flatMap] at h
  -- The violation is about the type or about one of the intents.
  rcases h with htype | ⟨a, -, hintent⟩
  · unfold typeViolations at htype
    split at htype
    · cases htype
    · obtain rfl := List.mem_singleton.mp htype
      exact id
  · unfold intentViolations at hintent
    split at hintent
    · obtain rfl := List.mem_singleton.mp hintent
      exact id
    · split at hintent
      · cases hintent
      · obtain rfl := List.mem_singleton.mp hintent
        exact id

/-- What is wrong with the head of a routine is a name, one of its dummy arguments or
its own. With the violations of its declarations these are all that `routineViolations`
lists. -/
theorem not_isMismatch_of_mem_routineViolations {before : List Parsed.Routine} {r : Parsed.Routine}
    (h : e ∈ routineViolations before r) : ¬ e.defect.IsMismatch := by
  rw [routineViolations, List.mem_append, List.mem_append, List.mem_flatMap,
    List.mem_flatMap] at h
  -- The violation is about a declaration, a dummy argument or the name.
  rcases h with (⟨d, -, hd⟩ | ⟨a, -, hparameter⟩) | hname
  · exact not_isMismatch_of_mem_variableViolations hd
  · unfold parameterViolations at hparameter
    split at hparameter
    · cases hparameter
    · obtain rfl := List.mem_singleton.mp hparameter
      exact id
  · unfold nameViolations at hname
    split at hname
    · obtain rfl := List.mem_singleton.mp hname
      exact id
    · cases hname

/-- A program that is not declared has no mismatch to blame. What it is blamed for is
one of its `declarationViolations`. -/
theorem not_isMismatch_of_declare (h : (declare t).outcome = .error e) :
    ¬ e.defect.IsMismatch := by
  obtain ⟨⟨before, r⟩, -, he⟩ := List.mem_flatMap.mp (mem_declarationViolations h)
  exact not_isMismatch_of_mem_routineViolations he

/-- A body cannot be planned because its routine is not found or because one of its
assignments is not resolved. -/
theorem plan_bodies_eq_error {r : Parsed.Routine} (h : (bodies options).plan p r = .error e) :
    e.defect = .undefinedSymbol r.name ∨
      ∃ id routine, p.findRoutine? r.name = some (id, routine) ∧
        ∃ a ∈ r.body, (resolveAssignment options p.table routine.scope a).outcome = .error e := by
  rcases bind_eq_error_iff.mp h with hnone | ⟨⟨id, routine⟩, hfound, hcompute⟩
  · exact .inl (congrArg Diagnostic.defect (blameNone_eq_error_iff.mp hnone).2)
  · have hbody := map_eq_error_iff.mp hcompute
    rw [outcome_compute_bodies] at hbody
    obtain ⟨earlier, a, later, -, hsplit, -, ha⟩ := exists_of_mapM_eq_error hbody
    have hmem : a ∈ r.body := by
      rw [hsplit]
      exact List.mem_append_right _ List.mem_cons_self
    exact .inr ⟨id, routine, blameNone_eq_ok_iff.mp hfound, a, hmem, ha⟩

/-- If the analysis of a program ends with a mismatch, then the program is declared and
one of its assignments is not resolved. Neither the declaration nor linking can end like
this, as their defects are of other kinds. The two lemmas below look into the
assignment. -/
theorem exists_assignment_of_mismatch (h : (analyze options t).outcome = .error e)
    (hmismatch : e.defect.IsMismatch) :
    ∃ p, (declare t).outcome = .ok p ∧ ∃ r ∈ t.routines, ∃ id routine,
      p.findRoutine? r.name = some (id, routine) ∧
        ∃ a ∈ r.body, (resolveAssignment options p.table routine.scope a).outcome = .error e := by
  cases hp : (declare t).outcome with
  | error e' =>
      rw [outcome_analyze, hp] at h
      obtain rfl : e' = e := Except.error.inj h
      exact absurd hmismatch (not_isMismatch_of_declare hp)
  | ok p =>
      -- Linking does not fail, so resolution has, in some plan made on the declared program.
      rw [outcome_analyze_of_declare hp] at h
      have hresolve := map_eq_error_iff.mp h
      rw [resolve_eq_run, Filling.outcome_run] at hresolve
      obtain ⟨r, hr, hplan⟩ := exists_of_forM_eq_error hresolve
      rcases plan_bodies_eq_error (map_eq_error_iff.mp hplan) with hname | hfound
      · rw [hname] at hmismatch
        cases hmismatch
      · exact ⟨p, rfl, r, hr, hfound⟩

/-- Two expressions clash in the scope of a routine, where the program has been
declared. The scope is that of the declared program, before any body is resolved. -/
def ClashIn (t : Parsed.Program) (r : Parsed.Routine) (left right : Parsed.Expr)
    (leftType rightType : ScalarType) : Prop :=
  ∃ p id routine, (declare t).outcome = .ok p ∧ p.findRoutine? r.name = some (id, routine) ∧
    Clash p.table routine.scope left right leftType rightType

variable {location : Location} {leftType rightType : ScalarType}

/-- A complaint about operands stands at an operation in a side of some assignment, and
they clash. The types in the complaint are theirs. Which of several such operations is
blamed is not said here, only that the one at the location is one of them. -/
theorem exists_operation_of_mismatch
    (h : (analyze options t).outcome = .error ⟨.operandMismatch leftType rightType, location⟩) :
    ∃ r ∈ t.routines, ∃ a ∈ r.body, ∃ tree, (tree = a.target ∨ tree = a.value) ∧
      ∃ op left right, .binary op left right location ∈ tree.postorder ∧
        ClashIn t r left right leftType rightType := by
  obtain ⟨p, hp, r, hr, id, routine, hfound, a, ha, hfail⟩ := exists_assignment_of_mismatch h trivial
  -- The complaint comes from one of the two trees, as the check of the sides makes another.
  have hside : ∃ tree, (tree = a.target ∨ tree = a.value) ∧
      (resolveExpr p.table routine.scope tree).outcome =
        .error ⟨.operandMismatch leftType rightType, location⟩ := by
    rcases resolveAssignment_eq_error hfail with htarget | hvalue | ⟨_, _, hsides, -⟩
    · exact ⟨a.target, .inl rfl, htarget⟩
    · exact ⟨a.value, .inr rfl, hvalue⟩
    · cases congrArg Diagnostic.defect hsides
  obtain ⟨tree, htree, hexpr⟩ := hside
  rcases resolveExpr_eq_error hexpr with ⟨_, hname⟩ | ⟨_, _, hdefect, op, left, right, hmem, hclash⟩
  · cases hname
  · cases hdefect
    exact ⟨r, hr, a, ha, tree, htree, op, left, right, hmem, p, id, routine, hp, hfound, hclash⟩

/-- A complaint about the sides of an assignment stands at one whose sides clash. Its
location is that of the assignment. Only the strict check makes such a complaint, so the
options are known from it. -/
theorem exists_sides_of_mismatch
    (h : (analyze options t).outcome = .error ⟨.assignmentMismatch leftType rightType, location⟩) :
    ∃ r ∈ t.routines, ∃ a ∈ r.body, a.location = location ∧
      ClashIn t r a.target a.value leftType rightType := by
  obtain ⟨p, hp, r, hr, id, routine, hfound, a, ha, hfail⟩ := exists_assignment_of_mismatch h trivial
  -- The resolution of an expression does not complain about sides.
  have hnot : ∀ tree, (resolveExpr p.table routine.scope tree).outcome ≠
      .error ⟨.assignmentMismatch leftType rightType, location⟩ := by
    intro tree hexpr
    rcases resolveExpr_eq_error hexpr with ⟨_, hname⟩ | ⟨_, _, hdefect, -⟩
    · cases hname
    · cases hdefect
  rcases resolveAssignment_eq_error hfail with htarget | hvalue | ⟨_, _, hsides, hclash⟩
  · exact absurd htarget (hnot _)
  · exact absurd hvalue (hnot _)
  · cases hsides
    exact ⟨r, hr, a, ha, rfl, p, id, routine, hp, hfound, hclash⟩

end Analysis

end FortranFront
