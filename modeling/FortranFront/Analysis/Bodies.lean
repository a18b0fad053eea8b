import FortranFront.Analysis.Pass

/-!
# `FortranFront.Analysis.Bodies`: bodies with their names resolved

`resolve` gives every routine its typed body. In an expression each name must be
bound to a variable of the routine's own scope, and the operands of an operation
must be of one family. Operands come before their operation, left before right,
and the target of an assignment before its value. Whether both sides of an
assignment are of one family is checked only where the options ask for it.
-/

set_option autoImplicit false

namespace FortranFront.Analysis

/-- The type of an integer literal. Its kind is not the one a declaration gives, which
makes no difference to the checks, since these compare families. -/
def literalType : ScalarType := .integer 8

/-- The type of an operation, whatever the types of its operands are. There is no
promotion, so an operation on integers is of a real type too, and cannot be an operand
beside an integer. -/
def operationType : ScalarType := .real ScalarType.defaultKind

/-- The variable a name stands for in a scope. It has to be bound to a variable: a name
of a routine is undefined here. The step is recorded once the variable is found. -/
def resolveName (table : SymbolTable) (scope : ScopeId) (id : String) (location : Location) :
    Traced Typed.Expr := do
  let (symbol, v) ← Traced.lift
    ((Defect.undefinedSymbol id).blameNone location (table.findVariable? scope id))
  Traced.log (.resolvedName id symbol scope)
  return .var symbol scope v.type location

/-- The typed expression of an expression in a scope. The operands of an operation are
resolved before they are compared, so a fault inside of them is blamed first. -/
def resolveExpr (table : SymbolTable) (scope : ScopeId) : Parsed.Expr → Traced Typed.Expr
  | .name id location => resolveName table scope id location
  | .literal value location => return .literal value literalType location
  | .binary op left right location => do
      let left ← resolveExpr table scope left
      let right ← resolveExpr table scope right
      Traced.lift ((Defect.operandMismatch left.type right.type).blameUnless location
        (left.type.SameFamily right.type))
      return .binary (.ofParsed op) left right operationType location

/-- The typed assignment of an assignment in a scope. Both sides are resolved before
they are compared, which happens only if the options ask for it. The location is
kept. -/
def resolveAssignment (options : Options) (table : SymbolTable) (scope : ScopeId)
    (a : Parsed.Assignment) : Traced Typed.Assignment := do
  let target ← resolveExpr table scope a.target
  let value ← resolveExpr table scope a.value
  Traced.lift ((Defect.assignmentMismatch target.type value.type).blameUnless a.location
    (options.checkAssignmentTypes = true → target.type.SameFamily value.type))
  return ⟨target, value, a.location⟩

/-- Gives a routine the typed body of a parsed routine of the same name. The names are
looked up in the scope of the routine that was found. Nothing is written if the body
cannot be resolved. -/
def resolveRoutine (options : Options) (p : Typed.Program) (r : Parsed.Routine) :
    Traced Typed.Program := do
  let (id, routine) ← Traced.lift (findRoutine p r)
  let body ← r.body.mapM (resolveAssignment options p.table routine.scope)
  Traced.log (.resolvedBody body.length r.name)
  return p.modifyRoutine id fun routine => { routine with body := body }

/-- Resolves the bodies of a parsed program into a typed program. The bodies that were
written before a failure stay, as `Pass.run` has it. -/
def resolve (options : Options) (t : Parsed.Program) (p : Typed.Program) : Pass :=
  Pass.run (resolveRoutine options) p t.routines

end FortranFront.Analysis
