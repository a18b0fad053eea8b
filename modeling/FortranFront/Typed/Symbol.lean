import FortranFront.Heading
import FortranFront.Intent
import FortranFront.Typed.Expr

/-!
# `FortranFront.Typed.Symbol`: what a name can stand for

A symbol is a variable or a routine. A routine owns a scope with its variables. A
function also has an implicit result, a variable of its own scope that bears the
function's name. Parameters and body are empty until the analysis has filled them.
-/

set_option autoImplicit false

namespace FortranFront.Typed

/-- A variable of a routine. It was declared, or it is the result of a function and then
has the name and the location of the function. -/
structure Variable where
  name : String
  intent : Intent
  type : ScalarType
  location : Location
deriving DecidableEq

/-- A subroutine, or a function with the variable that holds its result. The result is
an expression, so that it has a handle, a scope and a type like any mention of it in a
body. -/
inductive RoutineKind where
  | subroutine
  | function (result : Expr)
deriving DecidableEq

/-- A routine whose names live in a scope of its own. Its parameters and its body are
put in by two passes, and are empty before these have run. -/
structure Routine where
  name : String
  kind : RoutineKind
  scope : ScopeId
  parameters : List Expr
  body : List Assignment
  binding : Option Binding
  location : Location
deriving DecidableEq

namespace Routine

/-- The result variable of a function. -/
def result? (r : Routine) : Option Expr :=
  match r.kind with
  | .function result => some result
  | .subroutine => none

/-- Passes a state through every node of the body, statement by statement. Neither the
parameters nor the result variable are visited. -/
def visit {σ : Type} (f : σ → Expr → σ) (s : σ) (r : Routine) : σ :=
  r.body.foldl (fun s a => a.visit f s) s

/-- Every node of the body in the order of `visit`. -/
def postorder (r : Routine) : List Expr := r.body.flatMap (·.postorder)

/-- The variables the body mentions, in the order of evaluation and with repeats. A visit
collects them, each behind those found before it. -/
def references (r : Routine) : List SymbolId :=
  r.visit (fun found e => found ++ e.symbol?.toList) []

end Routine

/-- The meaning of a declared name. -/
inductive Symbol where
  | var (v : Variable)
  | routine (r : Routine)
deriving DecidableEq

namespace Symbol

/-- The name a symbol is declared under. -/
def name : Symbol → String
  | .var v => v.name
  | .routine r => r.name

/-- Where a symbol is declared. -/
def location : Symbol → Location
  | .var v => v.location
  | .routine r => r.location

/-- The variable, if the symbol is one. -/
def toVariable? : Symbol → Option Variable
  | .var v => some v
  | .routine _ => none

/-- The routine, if the symbol is one. -/
def toRoutine? : Symbol → Option Routine
  | .var _ => none
  | .routine r => some r

/-- Applies a change to a routine and leaves a variable alone. With it a pass can write
to a handle without asking what is there. -/
def mapRoutine (f : Routine → Routine) : Symbol → Symbol
  | .var v => .var v
  | .routine r => .routine (f r)

end Symbol

end FortranFront.Typed
