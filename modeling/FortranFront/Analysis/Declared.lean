import FortranFront.Analysis.Locals
import FortranFront.Typed.Program

/-!
# `FortranFront.Analysis.Declared`: a program with all its names declared

`declare` builds a typed program with one scope for each routine, filled with the
routine's variables, and every routine in the unit scope. Parameters and bodies
are left empty. The first violation in source order ends it, and within a routine
declarations come before dummy arguments and these before the routine's own name.
-/

set_option autoImplicit false

namespace FortranFront.Analysis

/-- The kind of a routine whose variables get the handles from `first` on. The result of
a function is the first of them, because `localsOf` puts it before all declared ones. -/
def kindOf (r : Parsed.Routine) (first : SymbolId) (scope : ScopeId) : Typed.RoutineKind :=
  match resultVariable? r with
  | none => .subroutine
  | some v => .function (.var first scope v.type v.location)

/-- The routine as it is declared, without parameters and body. Its heading is copied,
its scope is the one that was opened for it. -/
def declaredRoutine (r : Parsed.Routine) (first : SymbolId) (scope : ScopeId) : Typed.Routine where
  name := r.name
  kind := kindOf r first scope
  scope := scope
  parameters := []
  body := []
  binding := r.binding.map .ofParsed
  location := r.location

/-- Declares a routine in a scope of its own and adds it to the program. The variables
are bound before the routine, so its handle comes after theirs. Its own name is checked
last, when everything else is known to be in order. -/
def declareRoutine (p : Typed.Program) (r : Parsed.Routine) : Traced Typed.Program := do
  Traced.log (.declaring r.form r.name)
  let locals ← localsOf r
  Traced.lift (checkParameters r)
  let scope := p.table.nextScope
  let table := (p.table.openScope .routine).declareAll scope (locals.map .var)
  let routine := declaredRoutine r p.table.nextSymbol scope
  Traced.lift ((Defect.duplicateDefinition r.name).blameNone r.location
    (Typed.Program.addRoutine? { p with table := table } routine))

/-- Declares every routine of a program, in source order. It starts from the program
without routines and gives no program at all if one of them fails. -/
def declare (t : Parsed.Program) : Traced Typed.Program :=
  t.routines.foldlM declareRoutine .empty

end FortranFront.Analysis
