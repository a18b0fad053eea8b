/-!
# `FortranFront.Handle`: numbers that stand for scopes and symbols

Scopes and symbols are numbered from zero in the order they are created. The
numbers are wrapped, so that one is never taken for the other.
-/

set_option autoImplicit false

namespace FortranFront

/-- The number of a scope in its symbol table. In a program scope 0 is the unit scope,
and the others belong to the routines in the order they were declared. -/
structure ScopeId where
  index : Nat
deriving DecidableEq

/-- The number of a symbol in its symbol table. A handle keeps its meaning for as long
as the table grows, since symbols are only added at the end. -/
structure SymbolId where
  index : Nat
deriving DecidableEq

end FortranFront
