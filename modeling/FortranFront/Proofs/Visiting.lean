import FortranFront.Typed.Symbol
import Mathlib.Data.List.Basic

/-!
# `FortranFront.Proofs.Visiting`: trees read back from a visit

A visit hands every node of a tree to a callback, operands before their operation.
`visited` is what a callback sees that does nothing but keep a list. With each node
cut down to its `Head`, that list is postfix code. `readPostfix` reads such code with
a stack: a leaf is pushed, and an operator takes its right operand and then its left
one and pushes the operation.

* `visit_eq_foldl`: for expressions, assignments and routines, a visit is a fold over
  the nodes in postorder. So any callback sees what the list keeper sees, and passes
  its state on from node to node.
* `readPostfix_postorder`: the code of an expression pushes that expression, whatever
  is on the stack already. Code may therefore stand before and behind it.
* `Routine.references_eq_filterMap`: the variables that a visit of a body collects are
  those among its nodes.
* `visits_faithful`: the visits of all three kinds of trees can be read back, have one
  entry for each node and lose no state of the callback.
-/

set_option autoImplicit false

namespace FortranFront.Typed

/-! ### Postfix code -/

/-- What a node says of itself, without its operands. A literal and a variable are all
there is of them, and an operator keeps its type and its place. -/
inductive Head where
  | var (symbol : SymbolId) (scope : ScopeId) (type : ScalarType) (location : Location)
  | literal (value : Int) (type : ScalarType) (location : Location)
  | operator (op : Operator) (type : ScalarType) (location : Location)
deriving DecidableEq

/-- The head of the root of a tree. The operands of an operation are not in it. -/
def Expr.head : Expr → Head
  | .var symbol scope type location => .var symbol scope type location
  | .literal value type location => .literal value type location
  | .binary op _ _ type location => .operator op type location

/-- Reads one head. An operator needs two operands on the stack, the right one on top.
If there are fewer, the code is not that of a tree. -/
def Head.read : List Expr → Head → Option (List Expr)
  | stack, .var symbol scope type location => some (.var symbol scope type location :: stack)
  | stack, .literal value type location => some (.literal value type location :: stack)
  | right :: left :: stack, .operator op type location =>
      some (.binary op left right type location :: stack)
  | _, .operator _ _ _ => none

/-- Reads heads in a row, from a stack of trees. It stops at the first operator that
lacks an operand. -/
def readPostfix (code : List Head) (stack : List Expr) : Option (List Expr) :=
  code.foldlM Head.read stack

/-- Code in a row is read in a row, on one stack. -/
theorem readPostfix_append (code code' : List Head) (stack : List Expr) :
    readPostfix (code ++ code') stack = (readPostfix code stack).bind (readPostfix code') :=
  List.foldlM_append

/-- The code of an expression pushes the expression. The induction is on the tree for
every stack, since the right operand is read on top of the left one. For an operation
`readPostfix_append` splits its code into those of the operands and the operator, which
then finds both on the stack. -/
theorem readPostfix_postorder (e : Expr) (stack : List Expr) :
    readPostfix (e.postorder.map Expr.head) stack = some (e :: stack) := by
  induction e generalizing stack with
  | var symbol scope type location => rfl
  | literal value type location => rfl
  | binary op left right type location ihl ihr =>
      rw [Expr.postorder, List.map_append, List.map_append, readPostfix_append,
        readPostfix_append, ihl, Option.bind_some, ihr, Option.bind_some]
      rfl

/-- The code of expressions in a row pushes them one after the other. So the last one is
on top in the end. -/
theorem readPostfix_flatMap_postorder (trees stack : List Expr) :
    readPostfix ((trees.flatMap Expr.postorder).map Expr.head) stack =
      some (trees.reverse ++ stack) := by
  induction trees generalizing stack with
  | nil => rfl
  | cons e rest ih =>
      rw [List.flatMap_cons, List.map_append, readPostfix_append, readPostfix_postorder,
        Option.bind_some, ih, List.reverse_cons, List.append_assoc]
      rfl

/-- How many nodes a tree has. It is counted on the tree, so that the length of a visit
can be compared with it. -/
def Expr.size : Expr → Nat
  | .binary _ left right _ _ => left.size + right.size + 1
  | _ => 1

/-- There is one entry for each node, and none comes twice. -/
theorem Expr.length_postorder (e : Expr) : e.postorder.length = e.size := by
  induction e with
  | var symbol scope type location => rfl
  | literal value type location => rfl
  | binary op left right type location ihl ihr =>
      rw [postorder, List.length_append, List.length_append, ihl, ihr]
      rfl

/-- How many nodes some trees have together. -/
def nodeCount (trees : List Expr) : Nat := trees.foldr (fun e n => e.size + n) 0

/-- Trees in a row have as many entries as they have nodes together. -/
theorem length_flatMap_postorder (trees : List Expr) :
    (trees.flatMap Expr.postorder).length = nodeCount trees := by
  induction trees with
  | nil => rfl
  | cons e rest ih =>
      rw [List.flatMap_cons, List.length_append, e.length_postorder, ih]
      rfl

/-! ### Visits -/

/-- The two sides of an assignment, the target first. The source is read in this order
too. -/
def Assignment.sides (a : Assignment) : List Expr := [a.target, a.value]

/-- The targets and the values of a body, statement by statement. -/
def Routine.sides (r : Routine) : List Expr := r.body.flatMap Assignment.sides

section Fold

variable {σ : Type} (f : σ → Expr → σ) (s : σ)

/-- A visit passes the state along the nodes in postorder. It is defined by recursion on
the tree, and this says that nothing of the recursion is left in what a callback
sees. -/
theorem Expr.visit_eq_foldl (e : Expr) : e.visit f s = e.postorder.foldl f s := by
  induction e generalizing s with
  | var symbol scope type location => rfl
  | literal value type location => rfl
  | binary op left right type location ihl ihr =>
      -- What the left operand leaves goes to the right one, and what that leaves to the root.
      rw [visit, ihl, ihr, postorder, List.foldl_append, List.foldl_append]
      rfl

/-- The visit of an assignment goes through the nodes of the target and then through
those of the value. -/
theorem Assignment.visit_eq_foldl (a : Assignment) :
    a.visit f s = (a.sides.flatMap Expr.postorder).foldl f s := by
  rw [visit, Expr.visit_eq_foldl, Expr.visit_eq_foldl, ← List.foldl_append]
  simp [sides]

/-- The visit of a routine goes through the nodes of its sides, statement by statement.
The induction is on the body for every state, since each statement starts from what the
one before has left. -/
theorem Routine.visit_eq_foldl (r : Routine) :
    r.visit f s = (r.sides.flatMap Expr.postorder).foldl f s := by
  unfold visit sides
  induction r.body generalizing s with
  | nil => rfl
  | cons a rest ih =>
      rw [List.foldl_cons, ih, Assignment.visit_eq_foldl, List.flatMap_cons, List.flatMap_append,
        List.foldl_append]

end Fold

/-- The nodes of a routine in postorder are those of its sides. The former are collected
by assignment, and the latter by side. -/
theorem Routine.postorder_eq_flatMap (r : Routine) :
    r.postorder = r.sides.flatMap Expr.postorder := by
  have hsides : ∀ a : Assignment, a.postorder = a.sides.flatMap Expr.postorder := by
    intro a
    simp [Assignment.postorder, Assignment.sides]
  unfold postorder sides
  rw [List.flatMap_assoc]
  simp only [hsides]

/-- The references of a routine are the variables among its nodes. What the callback of
`Routine.references` has found so far is a prefix, so by `visit_eq_foldl` its last state is
the variables of all nodes one after the other. -/
theorem Routine.references_eq_filterMap (r : Routine) :
    r.references = r.postorder.filterMap Expr.symbol? := by
  rw [references, visit_eq_foldl, ← postorder_eq_flatMap, List.foldl_append_eq_append,
    List.nil_append, ← List.flatMap_def, ← List.filterMap_eq_flatMap_toList]

/-- A visit of something, for callbacks with any kind of state. It is a function of the
callback, so nothing but what it hands out can be known of it. -/
def Visit : Type 1 := (σ : Type) → (σ → Expr → σ) → σ → σ

namespace Visit

/-- The nodes that a visit hands out, as a callback sees them that keeps a list. Each is
put behind those before it. -/
def visited (visit : Visit) : List Expr := visit (List Expr) (fun seen node => seen ++ [node]) []

/-- The postfix code of a visit. The operands of a node are cut off, so a tree has to be
read back from the order alone. -/
def code (visit : Visit) : List Head := visit.visited.map Expr.head

/-- A visit of some trees loses nothing. Its code is read without a lack of operands,
and what is on the stack in the end is the trees, the last on top. It has one entry for
each node. The final state of a callback is what the callback makes of the nodes from
left to right. -/
structure Faithful (visit : Visit) (trees : List Expr) : Prop where
  read : readPostfix visit.code [] = some trees.reverse
  length : visit.code.length = nodeCount trees
  fold : ∀ (σ : Type) (f : σ → Expr → σ) (s : σ), visit σ f s = visit.visited.foldl f s

/-- A visit that is a fold over the nodes of some trees in postorder is faithful to
them. The list keeper then sees just these nodes, and they can be read. -/
theorem faithful_of_foldl {visit : Visit} {trees : List Expr}
    (h : ∀ (σ : Type) (f : σ → Expr → σ) (s : σ),
      visit σ f s = (trees.flatMap Expr.postorder).foldl f s) : visit.Faithful trees := by
  -- What the list keeper has seen is the list of all nodes.
  have hvisited : visit.visited = trees.flatMap Expr.postorder := by
    rw [visited, h, List.foldl_append_eq_append, List.nil_append, ← List.flatMap_def,
      List.flatMap_singleton']
  constructor
  case read => rw [code, hvisited, readPostfix_flatMap_postorder, List.append_nil]
  case length => rw [code, hvisited, List.length_map, length_flatMap_postorder]
  case fold => exact fun σ f s => by rw [hvisited, h]

end Visit

/-- The visit of an expression, with its callback left open. -/
def Expr.visits (e : Expr) : Visit := fun _ f s => e.visit f s

/-- The visit of an assignment, with its callback left open. -/
def Assignment.visits (a : Assignment) : Visit := fun _ f s => a.visit f s

/-- The visit of the body of a routine, with its callback left open. Its parameters are
not visited. -/
def Routine.visits (r : Routine) : Visit := fun _ f s => r.visit f s

/-- The visit of an expression is faithful to that expression, the visit of an
assignment to its target and its value, and the visit of a routine to the targets and
values of its statements in order. So expressions are told apart by their code. The
three kinds of visits differ in their trees only, and `Visit.faithful_of_foldl` does the
rest for all of them. -/
theorem visits_faithful :
    (∀ e : Expr, e.visits.Faithful [e]) ∧
      (∀ a : Assignment, a.visits.Faithful [a.target, a.value]) ∧
      (∀ r : Routine, r.visits.Faithful (r.body.flatMap fun a => [a.target, a.value])) ∧
      ∀ e e' : Expr, e.visits.code = e'.visits.code ↔ e = e' := by
  -- The list of one expression has the same nodes as the expression.
  have hexpr : ∀ e : Expr, e.visits.Faithful [e] := fun e =>
    Visit.faithful_of_foldl fun σ f s => by
      rw [List.flatMap_singleton]
      exact e.visit_eq_foldl f s
  refine ⟨hexpr, fun a => Visit.faithful_of_foldl fun σ f s => a.visit_eq_foldl f s,
    fun r => Visit.faithful_of_foldl fun σ f s => r.visit_eq_foldl f s, fun e e' => ?_⟩
  constructor
  · intro hcode
    -- Both expressions are what the one code is read as.
    have hread := (hexpr e).read
    rw [hcode, (hexpr e').read] at hread
    exact (List.singleton_inj.mp (Option.some.inj hread)).symm
  · rintro rfl
    rfl

end FortranFront.Typed
