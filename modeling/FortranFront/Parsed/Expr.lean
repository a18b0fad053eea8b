import FortranFront.Location
import FortranFront.Operator

/-!
# `FortranFront.Parsed.Expr`: expressions and assignments as they were read

A parsed expression knows its shape and where each part of it stands, and nothing
else: its names are not looked up and it has no type. `Expr.apply` and
`Assignment.of` build a tree whose locations cover their parts. A parser may also
give a node a location of its own, which is then kept as it is.
-/

set_option autoImplicit false

namespace FortranFront.Parsed

/-- An arithmetic expression before its names are looked up. Each node has a location of
its own, and nothing ties it to the locations of its parts. -/
inductive Expr where
  | name (id : String) (location : Location)
  | literal (value : Int) (location : Location)
  | binary (op : Operator) (left right : Expr) (location : Location)
deriving DecidableEq

namespace Expr

/-- Where the root of the tree stands, as its parser has given it. -/
def location : Expr → Location
  | .name _ location => location
  | .literal _ location => location
  | .binary _ _ _ location => location

/-- The operation that reaches over just its two operands. Of all locations that cover
both it has the least one, by `Location.merge`. -/
def apply (op : Operator) (left right : Expr) : Expr :=
  .binary op left right (left.location.merge right.location)

/-- Every node of the tree, left operands first and operands before their operation.
This is the order in which names are looked up and operands compared, so the first node
at fault is the one that is blamed. -/
def postorder : Expr → List Expr
  | .binary op left right location =>
      left.postorder ++ right.postorder ++ [.binary op left right location]
  | leaf => [leaf]

end Expr

/-- The assignment of a value to a target. -/
structure Assignment where
  target : Expr
  value : Expr
  location : Location
deriving DecidableEq

namespace Assignment

/-- The assignment that reaches over just its two sides, as `Expr.apply` does for an
operation. -/
def of (target value : Expr) : Assignment :=
  ⟨target, value, target.location.merge value.location⟩

/-- Every node of both sides, the target's first. Resolution goes through them in this
order. -/
def postorder (s : Assignment) : List Expr := s.target.postorder ++ s.value.postorder

end Assignment

end FortranFront.Parsed
