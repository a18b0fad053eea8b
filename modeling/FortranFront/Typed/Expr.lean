import FortranFront.Handle
import FortranFront.Location
import FortranFront.Operator
import FortranFront.ScalarType

/-!
# `FortranFront.Typed.Expr`: expressions and assignments after resolution

In a typed expression every name is the handle of a variable together with the
scope it was found in, and every node has a type. `visit` threads a state through
all nodes of a tree, operands before their operation, and `postorder` is the list
of nodes in that order.
-/

set_option autoImplicit false

namespace FortranFront.Typed

/-- An arithmetic expression whose names are resolved. The type of a node is stored in
it, and the locations are those of the parsed expression. -/
inductive Expr where
  | var (symbol : SymbolId) (scope : ScopeId) (type : ScalarType) (location : Location)
  | literal (value : Int) (type : ScalarType) (location : Location)
  | binary (op : Operator) (left right : Expr) (type : ScalarType) (location : Location)
deriving DecidableEq

namespace Expr

/-- The type of the value of the tree. It is read off the root, so it takes no walk
through the operands. -/
def type : Expr → ScalarType
  | .var _ _ type _ => type
  | .literal _ type _ => type
  | .binary _ _ _ type _ => type

/-- Where the root of the tree stands. -/
def location : Expr → Location
  | .var _ _ _ location => location
  | .literal _ _ location => location
  | .binary _ _ _ _ location => location

/-- The symbol a variable stands for, and none for any other node. The operands of an
operation do not count, since a visit comes to them by themselves. -/
def symbol? : Expr → Option SymbolId
  | .var symbol _ _ _ => some symbol
  | _ => none

/-- Passes a state through every node, left operands first and operands before their
operation. The state may be of any type, so a callback can count, collect or look for
something with it. -/
def visit {σ : Type} (f : σ → Expr → σ) (s : σ) : Expr → σ
  | .binary op left right type location =>
      f (right.visit f (left.visit f s)) (.binary op left right type location)
  | leaf => f s leaf

/-- Every node of the tree in the order of `visit`. `Proofs/Visiting` shows that a visit
is a fold over this list. -/
def postorder : Expr → List Expr
  | .binary op left right type location =>
      left.postorder ++ right.postorder ++ [.binary op left right type location]
  | leaf => [leaf]

end Expr

/-- The assignment of a value to a target. -/
structure Assignment where
  target : Expr
  value : Expr
  location : Location
deriving DecidableEq

namespace Assignment

/-- Passes a state through the nodes of the target, then through those of the value. The
assignment itself is no node. -/
def visit {σ : Type} (f : σ → Expr → σ) (s : σ) (a : Assignment) : σ :=
  a.value.visit f (a.target.visit f s)

/-- Every node of both sides in the order of `visit`. -/
def postorder (a : Assignment) : List Expr := a.target.postorder ++ a.value.postorder

end Assignment

end FortranFront.Typed
