import FortranFront.SymbolTable

/-!
# `FortranFront.Typed.Program`: the routines of an analysed program

A typed program is a symbol table whose first scope binds the routines, with the
handles of these routines in the order they were read. A program may be asked for
a routine by name, and for a variable by its routine and its own name.
-/

set_option autoImplicit false

namespace FortranFront.Typed

/-- The scopes and symbols of a program, and its routines in source order. The handles
in `items` lead to routines of the table. -/
structure Program where
  table : SymbolTable
  items : List SymbolId
deriving DecidableEq

namespace Program

/-- The scope that binds the routines of a program. -/
def unitScope : ScopeId := ⟨0⟩

/-- The program without routines. It has its unit scope, so that the first routine has
somewhere to be added. -/
def empty : Program := ⟨SymbolTable.empty.openScope .unit, []⟩

/-- The handle bound to a name in the unit scope. Only names of routines are bound
there. -/
def lookup (p : Program) (name : String) : Option SymbolId := p.table.lookup unitScope name

/-- The routine of a name, with its handle. -/
def findRoutine? (p : Program) (name : String) : Option (SymbolId × Routine) :=
  p.table.findRoutine? unitScope name

/-- The routine of a name. This is what a caller asks for who has no handles. -/
def routine? (p : Program) (name : String) : Option Routine := (p.findRoutine? name).map (·.2)

/-- The variable of a name in the scope of the named routine. It is not found in the
unit scope or in the scope of another routine. -/
def variableOf? (p : Program) (routine name : String) : Option Variable := do
  let r ← p.routine? routine
  let (_, v) ← p.table.findVariable? r.scope name
  return v

/-- Every routine in source order. A handle that led to no routine would be passed over,
but there is none in a program that comes from a declaration. -/
def routines (p : Program) : List Routine :=
  p.items.filterMap fun id => (p.table.symbol? id).bind Symbol.toRoutine?

/-- Adds a routine to the unit scope, unless its name is taken there. The routine is the
last of the items then, so these stand in the order of declaration. -/
def addRoutine? (p : Program) (r : Routine) : Option Program :=
  (p.table.declare? unitScope (.routine r)).map fun (id, table) => ⟨table, p.items ++ [id]⟩

/-- Changes the routine of a handle in its place. Neither the names nor the items
change, so everything is found as before. -/
def modifyRoutine (p : Program) (id : SymbolId) (f : Routine → Routine) : Program :=
  { p with table := p.table.modify id (·.mapRoutine f) }

end Program

end FortranFront.Typed
