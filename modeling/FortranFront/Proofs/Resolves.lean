import FortranFront.Proofs.Filling

/-!
# `FortranFront.Proofs.Resolves`: what a successful pass produces

The passes compute typed trees and may fail on the way. `Resolves` relates a
parsed expression to the typed one it stands for, without saying how to find it or
what happens if there is none. The statements here say that a computation succeeds
exactly with what is so related:

* `resolveExpr_eq_ok_iff`, `resolveAssignment_eq_ok_iff`, `linkParameter_eq_ok_iff`
  for the parts of a routine;
* `plan_bodies_eq_ok_iff` and `plan_parameters_eq_ok_iff` for the plans that the
  two passes make for a whole routine.
-/

set_option autoImplicit false

namespace FortranFront.Analysis

/-- A typed expression that a parsed one stands for in a scope. There is one rule for
each kind of node, and each says all that has to hold for the node to be resolved.
Nothing is said of an order in which names are looked up, since a success does not
depend on it. -/
inductive Resolves (table : SymbolTable) (scope : ScopeId) : Parsed.Expr → Typed.Expr → Prop
  /-- A name stands for the variable it is bound to. -/
  | name {id : String} {location : Location} {symbol : SymbolId} {v : Typed.Variable} :
      table.findVariable? scope id = some (symbol, v) →
      Resolves table scope (.name id location) (.var symbol scope v.type location)
  /-- A literal stands for itself. -/
  | literal {value : Int} {location : Location} :
      Resolves table scope (.literal value location) (.literal value literalType location)
  /-- An operation stands for the same operation if its operands agree in their family. -/
  | binary {op : Parsed.Operator} {left right : Parsed.Expr} {left' right' : Typed.Expr}
      {location : Location} :
      Resolves table scope left left' → Resolves table scope right right' →
      left'.type.SameFamily right'.type →
      Resolves table scope (.binary op left right location)
        (.binary (.ofParsed op) left' right' operationType location)

/-- A typed assignment that a parsed one stands for in a scope. The condition on the
families is there only for those who ask for the check. Without it the sides may be of
any families. -/
structure ResolvesAssignment (options : Options) (table : SymbolTable) (scope : ScopeId)
    (a : Parsed.Assignment) (a' : Typed.Assignment) : Prop where
  target : Resolves table scope a.target a'.target
  value : Resolves table scope a.value a'.value
  sameFamily : options.checkAssignmentTypes = true → a'.target.type.SameFamily a'.value.type
  location : a'.location = a.location

variable {options : Options} {table : SymbolTable} {scope : ScopeId}

/-- An expression is resolved to what it stands for, and not at all if it stands for
nothing. The induction is on the parsed expression, with the typed one left free,
because the operands are resolved to other trees. -/
theorem resolveExpr_eq_ok_iff {e : Parsed.Expr} {e' : Typed.Expr} :
    (resolveExpr table scope e).outcome = .ok e' ↔ Resolves table scope e e' := by
  induction e generalizing e' with
  | name id location =>
      simp only [resolveExpr, resolveName, Traced.outcome_bind, Traced.outcome_lift,
        Traced.outcome_log, Traced.outcome_pure]
      constructor
      · intro h
        obtain ⟨⟨symbol, v⟩, hfound, hlast⟩ := bind_eq_ok_iff.mp h
        cases hlast
        exact .name (blameNone_eq_ok_iff.mp hfound)
      · intro h
        cases h with
        | name hfound => exact bind_eq_ok_iff.mpr ⟨_, blameNone_eq_ok_iff.mpr hfound, rfl⟩
  | literal value location =>
      constructor
      · intro h
        cases h
        exact .literal
      · intro h
        cases h
        rfl
  | binary op left right location ihl ihr =>
      simp only [resolveExpr, Traced.outcome_bind, Traced.outcome_lift, Traced.outcome_pure]
      constructor
      · -- Three parts in a row: the left operand, the right one and the check of both.
        intro h
        obtain ⟨left', hl, hrest⟩ := bind_eq_ok_iff.mp h
        obtain ⟨right', hr, hcheck⟩ := bind_eq_ok_iff.mp hrest
        obtain ⟨_, hfamily, hlast⟩ := bind_eq_ok_iff.mp hcheck
        cases hlast
        exact .binary (ihl.mp hl) (ihr.mp hr) (blameUnless_eq_ok_iff.mp hfamily)
      · -- The operands are resolved by induction, and the check on their families is part of
        -- the rule.
        intro h
        cases h with
        | binary hl hr hfamily =>
            refine bind_eq_ok_iff.mpr ⟨_, ihl.mpr hl, ?_⟩
            refine bind_eq_ok_iff.mpr ⟨_, ihr.mpr hr, ?_⟩
            exact bind_eq_ok_iff.mpr ⟨(), blameUnless_eq_ok_iff.mpr hfamily, rfl⟩

/-- An assignment is resolved to what it stands for, and not at all if it stands for
nothing. Both sides are settled by `resolveExpr_eq_ok_iff`, and what remains is the
check that the options may ask for. `ResolvesAssignment` has one field for each of the
three steps. -/
theorem resolveAssignment_eq_ok_iff {a : Parsed.Assignment} {a' : Typed.Assignment} :
    (resolveAssignment options table scope a).outcome = .ok a' ↔
      ResolvesAssignment options table scope a a' := by
  simp only [resolveAssignment, Traced.outcome_bind, Traced.outcome_lift, Traced.outcome_pure]
  -- The target comes first, then the value, and the check of both is last.
  constructor
  · intro h
    obtain ⟨target, ht, hrest⟩ := bind_eq_ok_iff.mp h
    obtain ⟨value, hv, hcheck⟩ := bind_eq_ok_iff.mp hrest
    obtain ⟨_, hfamily, hlast⟩ := bind_eq_ok_iff.mp hcheck
    cases hlast
    exact ⟨resolveExpr_eq_ok_iff.mp ht, resolveExpr_eq_ok_iff.mp hv,
      blameUnless_eq_ok_iff.mp hfamily, rfl⟩
  · rintro ⟨ht, hv, hfamily, hlocation⟩
    obtain ⟨target, value, location⟩ := a'
    cases hlocation
    refine bind_eq_ok_iff.mpr ⟨target, resolveExpr_eq_ok_iff.mpr ht, ?_⟩
    refine bind_eq_ok_iff.mpr ⟨value, resolveExpr_eq_ok_iff.mpr hv, ?_⟩
    exact bind_eq_ok_iff.mpr ⟨(), blameUnless_eq_ok_iff.mpr hfamily, rfl⟩

/-- A dummy argument is linked to the variable of its name, at the place where it
stands. Its type is that of the variable, as for a name in a body. -/
theorem linkParameter_eq_ok_iff {a : Parsed.Parameter} {e : Typed.Expr} :
    linkParameter table scope a = .ok e ↔
      ∃ symbol v, table.findVariable? scope a.name = some (symbol, v) ∧
        e = .var symbol scope v.type a.location := by
  unfold linkParameter
  constructor
  · intro h
    obtain ⟨⟨symbol, v⟩, hfound, hlast⟩ := bind_eq_ok_iff.mp h
    cases hlast
    exact ⟨symbol, v, blameNone_eq_ok_iff.mp hfound, rfl⟩
  · rintro ⟨symbol, v, hfound, rfl⟩
    exact bind_eq_ok_iff.mpr ⟨_, blameNone_eq_ok_iff.mpr hfound, rfl⟩

/-! ### Plans for whole routines -/

variable {p : Typed.Program} {r : Parsed.Routine} {id : SymbolId}

/-- A plan succeeds where the routine is found and its part can be computed. The part is
computed in the scope of the routine that was found, which is why the routine is part of
the statement. -/
theorem Filling.plan_eq_ok_iff {α : Type} {F : Filling α} {x : α} :
    F.plan p r = .ok (id, x) ↔
      ∃ routine, p.findRoutine? r.name = some (id, routine) ∧
        (F.compute p.table routine.scope r).outcome = .ok x := by
  unfold Filling.plan findRoutine
  constructor
  · intro h
    obtain ⟨⟨i, routine⟩, hfound, hx⟩ := bind_eq_ok_iff.mp h
    -- A part that fails leaves no plan, so this one was computed.
    cases hcompute : (F.compute p.table routine.scope r).outcome with
    | error e => simp [hcompute, Except.map] at hx
    | ok y =>
        simp only [hcompute, Except.map, Except.ok.injEq, Prod.mk.injEq] at hx
        obtain ⟨rfl, rfl⟩ := hx
        exact ⟨routine, blameNone_eq_ok_iff.mp hfound, hcompute⟩
  · -- A routine that is found and a part that is computed make a plan.
    rintro ⟨routine, hfound, hcompute⟩
    refine bind_eq_ok_iff.mpr ⟨_, blameNone_eq_ok_iff.mpr hfound, ?_⟩
    simp [hcompute, Except.map]

/-- The body that is planned for a routine is what its assignments stand for in its
scope, one for each and in their order. -/
theorem plan_bodies_eq_ok_iff {body : List Typed.Assignment} :
    (bodies options).plan p r = .ok (id, body) ↔
      ∃ routine, p.findRoutine? r.name = some (id, routine) ∧
        List.Forall₂ (ResolvesAssignment options p.table routine.scope) r.body body := by
  rw [Filling.plan_eq_ok_iff]
  simp only [outcome_compute_bodies, mapM_eq_ok_iff, resolveAssignment_eq_ok_iff]

/-- The parameters that are planned for a routine are the variables of its scope that
its dummy arguments name, in the order of the heading and with its repeats. -/
theorem plan_parameters_eq_ok_iff {linked : List Typed.Expr} :
    parameters.plan p r = .ok (id, linked) ↔
      ∃ routine, p.findRoutine? r.name = some (id, routine) ∧
        List.Forall₂ (fun a e => linkParameter p.table routine.scope a = .ok e)
          r.parameters linked := by
  rw [Filling.plan_eq_ok_iff]
  simp only [outcome_compute_parameters, mapM_eq_ok_iff]

end FortranFront.Analysis
