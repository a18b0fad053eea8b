import FortranFront.Analysis.Pass

/-!
# `FortranFront.Analysis.Parameters`: dummy arguments linked to their variables

`link` gives every routine its parameters, each as the variable that the routine's
scope binds its name to. A parameter keeps the place where it stands in the
heading, and the list keeps its order and its repeats.
-/

set_option autoImplicit false

namespace FortranFront.Analysis

/-- The variable a dummy argument stands for in a scope. After a declaration there is
always one, but a caller may link another parsed program. -/
def linkParameter (table : SymbolTable) (scope : ScopeId) (a : Parsed.Parameter) :
    Except Diagnostic Typed.Expr := do
  let (symbol, v) ← (Defect.undeclaredDummy a.name).blameNone a.location
    (table.findVariable? scope a.name)
  return .var symbol scope v.type a.location

/-- Gives a routine the parameters of a parsed routine of the same name. Nothing is
written if one of them cannot be linked. -/
def linkRoutine (p : Typed.Program) (r : Parsed.Routine) : Traced Typed.Program := do
  let (id, routine) ← Traced.lift (findRoutine p r)
  let parameters ← Traced.lift (r.parameters.mapM (linkParameter p.table routine.scope))
  Traced.log (.linkedParameters parameters.length r.name)
  return p.modifyRoutine id fun routine => { routine with parameters := parameters }

/-- Links the dummy arguments of a parsed program in a typed program. The bodies of the
routines need not be there and are not touched. -/
def link (t : Parsed.Program) (p : Typed.Program) : Pass := Pass.run linkRoutine p t.routines

end FortranFront.Analysis
