import FortranFront.Typed.Symbol

/-!
# `FortranFront.SymbolTable`: scopes, symbols and their handles

A `Scope` binds names to symbols and has no parent, so a lookup never falls
through to an enclosing scope. A `SymbolTable` holds every scope and symbol of one
program. It only ever grows: a bound name is never bound again and a handle keeps
its meaning.

`declare` is the one way to bind a name. `modify` changes a symbol in its place
and no binding.
-/

set_option autoImplicit false

namespace FortranFront

/-- What a scope belongs to. The kind is fixed when the scope is opened, and it says
which symbols are bound there. -/
inductive ScopeKind where
  /-- Holds the routines of a program. -/
  | unit
  /-- Holds the variables of one routine. -/
  | routine
deriving DecidableEq

/-- The word for a kind of scope. -/
def ScopeKind.word : ScopeKind → String
  | .unit => "unit"
  | .routine => "routine"

instance : ToString ScopeKind := ⟨ScopeKind.word⟩

/-- The names of one lexical region, in the order they were bound. `lookup` finds the
first binding of a name, and `SymbolTable.declare?` sees to it that there is no
other. -/
structure Scope where
  kind : ScopeKind
  bindings : List (String × SymbolId)
deriving DecidableEq

namespace Scope

/-- A scope of some kind that binds nothing. -/
def empty (kind : ScopeKind) : Scope := ⟨kind, []⟩

/-- The symbol bound to a name. -/
def lookup (s : Scope) (name : String) : Option SymbolId := s.bindings.lookup name

/-- The scope binds the name. -/
def contains (s : Scope) (name : String) : Bool := (s.lookup name).isSome

/-- How many names the scope binds. -/
def size (s : Scope) : Nat := s.bindings.length

/-- The scope binds no name. -/
def isEmpty (s : Scope) : Bool := s.bindings.isEmpty

/-- Binds one more name, after all that are bound already. It does not look for the
name, so `declare?` has to. -/
def bind (s : Scope) (name : String) (id : SymbolId) : Scope :=
  { s with bindings := s.bindings ++ [(name, id)] }

end Scope

/-- Every scope and symbol of one program. A handle is a position in these arrays, and
both are only ever extended at their end. -/
structure SymbolTable where
  scopes : Array Scope
  symbols : Array Typed.Symbol
deriving DecidableEq

namespace SymbolTable

/-- The table without scopes and symbols. -/
def empty : SymbolTable := ⟨#[], #[]⟩

/-- The scope of a handle. -/
def scope? (t : SymbolTable) (id : ScopeId) : Option Scope := t.scopes[id.index]?

/-- The symbol of a handle. -/
def symbol? (t : SymbolTable) (id : SymbolId) : Option Typed.Symbol := t.symbols[id.index]?

/-- How many scopes there are. -/
def scopeCount (t : SymbolTable) : Nat := t.scopes.size

/-- How many symbols there are. -/
def symbolCount (t : SymbolTable) : Nat := t.symbols.size

/-- The handle that the next scope gets. -/
def nextScope (t : SymbolTable) : ScopeId := ⟨t.scopeCount⟩

/-- The handle that the next symbol gets. -/
def nextSymbol (t : SymbolTable) : SymbolId := ⟨t.symbolCount⟩

/-- Opens an empty scope, whose handle is `nextScope`. -/
def openScope (t : SymbolTable) (kind : ScopeKind) : SymbolTable :=
  { t with scopes := t.scopes.push (.empty kind) }

/-- Binds a symbol under its own name. Nothing comes of it if the scope binds that name
already, or if there is no such scope. In both cases no handle is used up, so handles
are numbered without gaps. -/
def declare? (t : SymbolTable) (scope : ScopeId) (symbol : Typed.Symbol) :
    Option (SymbolId × SymbolTable) :=
  match t.scope? scope with
  | none => none
  | some s =>
      if s.contains symbol.name then none
      else some (t.nextSymbol,
        { scopes := t.scopes.setIfInBounds scope.index (s.bind symbol.name t.nextSymbol)
          symbols := t.symbols.push symbol })

/-- Binds a symbol if its name is free, and changes nothing otherwise. This is
`declare?` for those that do not ask whether it has worked. -/
def declare (t : SymbolTable) (scope : ScopeId) (symbol : Typed.Symbol) : SymbolTable :=
  ((t.declare? scope symbol).map (·.2)).getD t

/-- Binds symbols one after the other, passing over those whose name is taken. Where the
scope is new and the names are different, `declareAll_openScope` gives the result in
closed form. -/
def declareAll (t : SymbolTable) (scope : ScopeId) (symbols : List Typed.Symbol) : SymbolTable :=
  symbols.foldl (·.declare scope) t

/-- The handle bound to a name in a scope. A name that is bound in another scope is not
found, whatever that scope is. -/
def lookup (t : SymbolTable) (scope : ScopeId) (name : String) : Option SymbolId :=
  (t.scope? scope).bind (·.lookup name)

/-- The symbol bound to a name in a scope, be it a variable or a routine. -/
def find? (t : SymbolTable) (scope : ScopeId) (name : String) : Option Typed.Symbol :=
  (t.lookup scope name).bind t.symbol?

/-- The handle of the variable a name is bound to in a scope, with that variable. A name
that is bound to a routine is not found. Resolution and linking go by it. -/
def findVariable? (t : SymbolTable) (scope : ScopeId) (name : String) :
    Option (SymbolId × Typed.Variable) := do
  let id ← t.lookup scope name
  let symbol ← t.symbol? id
  let v ← symbol.toVariable?
  return (id, v)

/-- The handle of the routine a name is bound to in a scope, with that routine. A name
that is bound to a variable is not found. Both passes find the routine they work on by
it. -/
def findRoutine? (t : SymbolTable) (scope : ScopeId) (name : String) :
    Option (SymbolId × Typed.Routine) := do
  let id ← t.lookup scope name
  let symbol ← t.symbol? id
  let r ← symbol.toRoutine?
  return (id, r)

/-- Changes a symbol in its place. Bindings stay as they are, so a change has to keep
the name of the symbol for lookups to stay right. -/
def modify (t : SymbolTable) (id : SymbolId) (f : Typed.Symbol → Typed.Symbol) : SymbolTable :=
  { t with symbols := t.symbols.modify id.index f }

end SymbolTable

end FortranFront
