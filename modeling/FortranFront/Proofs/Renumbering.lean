import FortranFront.Proofs.Filling
import FortranFront.Proofs.SymbolTable

/-!
# `FortranFront.Proofs.Renumbering`: typed programs under other numbers

The numbers of scopes and symbols depend on what was declared before them. A
`Renumbering` says what the numbers of one program are in another, and `renumber`
puts the new numbers into all that has handles. It changes no name, type, location
or shape, and moves no scope or symbol to another place in its table.

* `Renumbering.shift`: the numbers after so many other scopes and symbols. It leaves
  the unit scope alone and gives no number twice.
* `SymbolTable.Carries`: a name leads to the same symbol in two tables up to the
  numbers, so a variable or a routine is found in both.
* `outcome_resolveExpr_renumber`, `outcome_resolveAssignment_renumber` and
  `linkParameter_renumber`: where every name is bound to the renumbered variable,
  an expression, an assignment and a dummy argument come out renumbered, and a
  violation is the same.
* `Filling.Renumbers`: the same of whatever a pass fills in. `bodies_renumbers` and
  `parameters_renumbers` say it of the two passes.
* `Filling.Renumbers.plan` and `Filling.Renumbers.writes`: so a pass that finds a
  routine renumbered plans the renumbered part for it, and makes the same list of
  writes up to the numbers.
-/

set_option autoImplicit false

namespace FortranFront

/-- New numbers for scopes and symbols. Nothing is asked of them here. That no number is
given twice is shown of `shift`, where it is needed. -/
structure Renumbering where
  scope : ScopeId → ScopeId
  symbol : SymbolId → SymbolId

namespace Renumbering

/-- All numbers stay as they are. Statements about the first of two programs are stated
with it, so they have the same form as those about the second. -/
protected def id : Renumbering := ⟨fun s => s, fun i => i⟩

/-- No scope gets another number. -/
@[simp] theorem scope_id (s : ScopeId) : Renumbering.id.scope s = s := rfl

/-- No symbol gets another number. -/
@[simp] theorem symbol_id (i : SymbolId) : Renumbering.id.symbol i = i := rfl

/-- The numbers go up by as many scopes and symbols as come before. The unit scope is
the first one of every program, and stays the first one, since two programs that are put
together share it. -/
def shift (scopes symbols : Nat) : Renumbering where
  scope s := if s = Typed.Program.unitScope then s else ⟨s.index + scopes⟩
  symbol i := ⟨i.index + symbols⟩

section Shift

variable {n m : Nat} {s s' : ScopeId}

/-- The unit scope stays where it is. -/
@[simp] theorem scope_shift_unitScope :
    (shift n m).scope Typed.Program.unitScope = Typed.Program.unitScope := by
  simp [shift]

/-- All other scopes move up. -/
theorem scope_shift (hs : s ≠ Typed.Program.unitScope) :
    (shift n m).scope s = ⟨s.index + n⟩ :=
  if_neg hs

/-- Any other scope comes after as many as its number goes up by, and after the unit
scope besides. -/
theorem lt_index_scope_shift (hs : s ≠ Typed.Program.unitScope) :
    n < ((shift n m).scope s).index := by
  have hindex : s.index ≠ 0 := fun h => hs (ScopeId.index_inj.mp h)
  rw [scope_shift hs]
  show n < s.index + n
  omega

/-- The numbers of the scopes that come before are not given again. The unit scope is
left out, as it is the one number that both have. -/
theorem ne_scope_shift_of_le (hs : s ≠ Typed.Program.unitScope) (hle : s.index ≤ n) :
    s ≠ (shift n m).scope s' := by
  rintro rfl
  by_cases hs' : s' = Typed.Program.unitScope
  · exact hs (by rw [hs', scope_shift_unitScope])
  · have hlt := lt_index_scope_shift (n := n) (m := m) hs'
    omega

/-- No other scope becomes the unit scope. -/
theorem scope_shift_ne_unitScope (hs : s ≠ Typed.Program.unitScope) :
    (shift n m).scope s ≠ Typed.Program.unitScope := by
  intro h
  have hlt := lt_index_scope_shift (n := n) (m := m) hs
  rw [h] at hlt
  exact Nat.not_lt_zero n hlt

/-- Different scopes get different numbers. The unit scope is apart from the others, and
these all move up by as much. So a scope of the second of two tables can still be told
from all others once they are put together. -/
theorem scope_shift_inj : (shift n m).scope s = (shift n m).scope s' ↔ s = s' := by
  refine ⟨fun h => ?_, fun h => h ▸ rfl⟩
  -- Either scope may be the one that stays where it is.
  by_cases hs : s = Typed.Program.unitScope
  · by_contra hne
    rw [hs, scope_shift_unitScope] at h
    exact scope_shift_ne_unitScope (fun hs' => hne (hs.trans hs'.symm)) h.symm
  · by_cases hs' : s' = Typed.Program.unitScope
    · rw [hs', scope_shift_unitScope] at h
      exact absurd h (scope_shift_ne_unitScope hs)
    · rw [scope_shift hs, scope_shift hs', ScopeId.mk.injEq] at h
      exact ScopeId.index_inj.mp (Nat.add_right_cancel h)

/-- Different symbols get different numbers, since all move up by as much. -/
theorem symbol_shift_inj {i i' : SymbolId} :
    (shift n m).symbol i = (shift n m).symbol i' ↔ i = i' := by
  rw [← SymbolId.index_inj, ← SymbolId.index_inj]
  show i.index + m = i'.index + m ↔ _
  omega

end Shift

end Renumbering

/-! ### What has handles -/

namespace Typed

/-- The expression with new numbers in its variables. Types and locations stay, and so
does the shape of the tree. -/
def Expr.renumber (ρ : Renumbering) : Expr → Expr
  | .var symbol scope type location => .var (ρ.symbol symbol) (ρ.scope scope) type location
  | .literal value type location => .literal value type location
  | .binary op left right type location =>
      .binary op (left.renumber ρ) (right.renumber ρ) type location

/-- The assignment with new numbers on both sides. -/
def Assignment.renumber (ρ : Renumbering) (a : Assignment) : Assignment :=
  ⟨a.target.renumber ρ, a.value.renumber ρ, a.location⟩

/-- The kind of a routine with new numbers in the result. -/
def RoutineKind.renumber (ρ : Renumbering) : RoutineKind → RoutineKind
  | .subroutine => .subroutine
  | .function result => .function (result.renumber ρ)

/-- The routine with new numbers for its scope and in all its expressions. Its name, its
binding and its location have no numbers in them. -/
def Routine.renumber (ρ : Renumbering) (r : Routine) : Routine :=
  { r with
    kind := r.kind.renumber ρ
    scope := ρ.scope r.scope
    parameters := r.parameters.map (·.renumber ρ)
    body := r.body.map (·.renumber ρ) }

/-- The symbol with new numbers in a routine. A variable has none, and its own number is
not in the symbol but is its place in the table. -/
def Symbol.renumber (ρ : Renumbering) (s : Symbol) : Symbol := s.mapRoutine (·.renumber ρ)

end Typed

/-- The scope with new numbers behind its names, in the same order. -/
def Scope.renumber (ρ : Renumbering) (s : Scope) : Scope :=
  { s with bindings := s.bindings.map fun b => (b.1, ρ.symbol b.2) }

/-- The table with new numbers in its scopes and symbols, each of which stays in its
place. So a handle of the old table leads to the same place in the new one, and what is
found there is renumbered. To move the places is left to `SymbolTable.join`. -/
def SymbolTable.renumber (ρ : Renumbering) (t : SymbolTable) : SymbolTable where
  scopes := t.scopes.map (·.renumber ρ)
  symbols := t.symbols.map (·.renumber ρ)

/-- The program with new numbers in its table and its list of routines. -/
def Typed.Program.renumber (ρ : Renumbering) (p : Program) : Program where
  table := p.table.renumber ρ
  items := p.items.map ρ.symbol

variable {ρ : Renumbering}

/-! ### What keeps -/

namespace Typed

/-- The type of an expression has no numbers in it. -/
@[simp] theorem Expr.type_renumber (ρ : Renumbering) (e : Expr) :
    (e.renumber ρ).type = e.type := by
  cases e <;> rfl

/-- The name of a symbol has no numbers in it. -/
@[simp] theorem Symbol.name_renumber (ρ : Renumbering) (s : Symbol) :
    (s.renumber ρ).name = s.name := by
  cases s <;> rfl

/-- A variable stays what it is. -/
@[simp] theorem Symbol.toVariable?_renumber (ρ : Renumbering) (s : Symbol) :
    (s.renumber ρ).toVariable? = s.toVariable? := by
  cases s <;> rfl

/-- A routine stays one, with new numbers. -/
@[simp] theorem Symbol.toRoutine?_renumber (ρ : Renumbering) (s : Symbol) :
    (s.renumber ρ).toRoutine? = s.toRoutine?.map (·.renumber ρ) := by
  cases s <;> rfl

/-- With its old numbers an expression is what it was. The same is shown below of all
that has handles. -/
@[simp] theorem Expr.renumber_id (e : Expr) : e.renumber .id = e := by
  induction e with
  | var symbol scope type location => rfl
  | literal value type location => rfl
  | binary op left right type location ihl ihr => rw [renumber, ihl, ihr]

@[simp] theorem Assignment.renumber_id (a : Assignment) : a.renumber .id = a := by
  simp [renumber]

@[simp] theorem RoutineKind.renumber_id (k : RoutineKind) : k.renumber .id = k := by
  cases k <;> simp [renumber]

@[simp] theorem Routine.renumber_id (r : Routine) : r.renumber .id = r := by
  simp [renumber]

@[simp] theorem Symbol.renumber_id (s : Symbol) : s.renumber .id = s := by
  cases s <;> simp [renumber, mapRoutine]

end Typed

/-- A name leads to the new number of what it led to. The induction is on the bindings,
which keep their order. -/
theorem Scope.lookup_renumber (ρ : Renumbering) (s : Scope) (name : String) :
    (s.renumber ρ).lookup name = (s.lookup name).map ρ.symbol := by
  unfold lookup renumber
  induction s.bindings with
  | nil => rfl
  | cons b rest ih =>
      rw [List.map_cons, List.lookup_cons, List.lookup_cons]
      cases name == b.1
      · exact ih
      · rfl

namespace SymbolTable

/-- Behind a handle there is the renumbered symbol, at its old place. -/
@[simp] theorem symbol?_renumber (ρ : Renumbering) (t : SymbolTable) (id : SymbolId) :
    (t.renumber ρ).symbol? id = (t.symbol? id).map (·.renumber ρ) := by
  simp [renumber, symbol?]

variable {t t' : SymbolTable} {scope : ScopeId}

/-- A name that is looked up in a scope of one table leads to the same symbol as in
another table, under the new number. The two fields are the two steps by which a
variable or a routine is found. They are asked for one name in one scope, because two
tables that are put together do not agree on all names of the unit scope. -/
structure Carries (ρ : Renumbering) (t t' : SymbolTable) (scope : ScopeId) (name : String) :
    Prop where
  lookup : t'.lookup (ρ.scope scope) name = (t.lookup scope name).map ρ.symbol
  symbol : ∀ {id}, t.lookup scope name = some id →
    t'.symbol? (ρ.symbol id) = (t.symbol? id).map (·.renumber ρ)

namespace Carries

variable {name : String}

/-- A variable is found as it was, and its handle is renumbered. The variable itself has
no numbers in it. -/
theorem findVariable? (h : Carries ρ t t' scope name) :
    t'.findVariable? (ρ.scope scope) name =
      (t.findVariable? scope name).map (Prod.map ρ.symbol id) := by
  unfold SymbolTable.findVariable?
  rw [h.lookup]
  cases hl : t.lookup scope name with
  | none => rfl
  | some i =>
      have hsymbol := h.symbol hl
      cases hs : t.symbol? i with
      | none => simp [hsymbol, hs]
      | some symbol => cases hv : symbol.toVariable? <;> simp [hsymbol, hs, hv]

/-- A routine is found renumbered, under its new handle. -/
theorem findRoutine? (h : Carries ρ t t' scope name) :
    t'.findRoutine? (ρ.scope scope) name =
      (t.findRoutine? scope name).map (Prod.map ρ.symbol (·.renumber ρ)) := by
  unfold SymbolTable.findRoutine?
  rw [h.lookup]
  cases hl : t.lookup scope name with
  | none => rfl
  | some i =>
      have hsymbol := h.symbol hl
      cases hs : t.symbol? i with
      | none => simp [hsymbol, hs]
      | some symbol => cases hr : symbol.toRoutine? <;> simp [hsymbol, hs, hr]

end Carries

end SymbolTable

namespace Analysis

open Typed (Program)

/-! ### Resolution where the names are bound to renumbered variables -/

section Resolution

variable {t t' : SymbolTable} {scope : ScopeId}

/-- The names of a scope in one table are bound in a scope of another to the same
variables under their new numbers. This is all that resolution and linking ask of the
tables. -/
def BindsRenumbered (ρ : Renumbering) (t t' : SymbolTable) (scope : ScopeId) : Prop :=
  ∀ name, t'.findVariable? (ρ.scope scope) name =
    (t.findVariable? scope name).map (Prod.map ρ.symbol id)

/-- Renumbering at the end of a computation is renumbering of its value. Each part of a
computation is handled by one use of it. -/
theorem map_bind {α β γ δ : Type} {x : Except Diagnostic α} {y : Except Diagnostic β}
    {g : α → β} {f : β → Except Diagnostic γ} {f' : α → Except Diagnostic δ} {k : δ → γ}
    (hx : y = x.map g) (hf : ∀ a, f (g a) = (f' a).map k) :
    y.bind f = (x.bind f').map k := by
  subst hx
  cases x with
  | error e => rfl
  | ok a => exact hf a

/-- An expression is resolved to the renumbered expression, or has the same violation.
The induction is on the expression. Diagnostics have no numbers in them, so a violation
is not changed at all. The hypothesis speaks of all names of the scope, and the names of
the expression are among them. -/
theorem outcome_resolveExpr_renumber (h : BindsRenumbered ρ t t' scope) (e : Parsed.Expr) :
    (resolveExpr t' (ρ.scope scope) e).outcome =
      (resolveExpr t scope e).outcome.map (·.renumber ρ) := by
  induction e with
  | name id location =>
      simp only [resolveExpr, resolveName, Traced.outcome_bind, Traced.outcome_lift,
        Traced.outcome_log, Traced.outcome_pure, h id]
      cases t.findVariable? scope id <;> rfl
  | literal value location => rfl
  | binary op left right location ihl ihr =>
      simp only [resolveExpr, Traced.outcome_bind, Traced.outcome_lift, Traced.outcome_pure]
      refine map_bind ihl fun l => map_bind ihr fun r => ?_
      -- The check sees the types only, and these are the same.
      rw [Typed.Expr.type_renumber, Typed.Expr.type_renumber]
      cases (Defect.operandMismatch l.type r.type).blameUnless location
        (l.type.SameFamily r.type) <;> rfl

/-- An assignment is resolved to the renumbered assignment, or has the same violation.
The check at its end sees types only. -/
theorem outcome_resolveAssignment_renumber (options : Options)
    (h : BindsRenumbered ρ t t' scope) (a : Parsed.Assignment) :
    (resolveAssignment options t' (ρ.scope scope) a).outcome =
      (resolveAssignment options t scope a).outcome.map (·.renumber ρ) := by
  simp only [resolveAssignment, Traced.outcome_bind, Traced.outcome_lift, Traced.outcome_pure]
  refine map_bind (outcome_resolveExpr_renumber h a.target) fun target =>
    map_bind (outcome_resolveExpr_renumber h a.value) fun value => ?_
  rw [Typed.Expr.type_renumber, Typed.Expr.type_renumber]
  cases (Defect.assignmentMismatch target.type value.type).blameUnless a.location
    (options.checkAssignmentTypes = true → target.type.SameFamily value.type) <;> rfl

/-- A dummy argument is linked to the renumbered variable, or is undeclared in both. -/
theorem linkParameter_renumber (h : BindsRenumbered ρ t t' scope) (a : Parsed.Parameter) :
    linkParameter t' (ρ.scope scope) a = (linkParameter t scope a).map (·.renumber ρ) := by
  unfold linkParameter
  rw [h a.name]
  cases t.findVariable? scope a.name <;> rfl

end Resolution

/-! ### Parts of routines -/

/-- A walk over values that are changed at the end collects the changed values. It
carries `map_bind` along a list. -/
theorem mapM_map {α β γ : Type} {f : α → Except Diagnostic β} {f' : α → Except Diagnostic γ}
    {k : γ → β} (h : ∀ a, f a = (f' a).map k) (xs : List α) :
    xs.mapM f = (xs.mapM f').map (List.map k) := by
  induction xs with
  | nil => rfl
  | cons x xs ih =>
      rw [List.mapM_cons, List.mapM_cons]
      exact map_bind (h x) fun y => map_bind ih fun ys => rfl

/-- What a filling computes is renumbered with the variables it is computed from, and
can be put into the routine before or after that. The last field says that with the old
numbers a part is what it was. -/
structure Filling.Renumbers {α : Type} (F : Filling α) (renumber : Renumbering → α → α) :
    Prop where
  compute : ∀ {ρ : Renumbering} {t t' : SymbolTable} {scope : ScopeId},
    BindsRenumbered ρ t t' scope → ∀ r : Parsed.Routine,
      (F.compute t' (ρ.scope scope) r).outcome =
        (F.compute t scope r).outcome.map (renumber ρ)
  put : ∀ (ρ : Renumbering) (x : α) (routine : Typed.Routine),
    F.put (renumber ρ x) (routine.renumber ρ) = (F.put x routine).renumber ρ
  id : ∀ x : α, renumber .id x = x

/-- A body is renumbered assignment by assignment, by
`outcome_resolveAssignment_renumber`. -/
theorem bodies_renumbers (options : Options) :
    (bodies options).Renumbers fun ρ => List.map (·.renumber ρ) where
  compute h r := by
    rw [outcome_compute_bodies, outcome_compute_bodies]
    exact mapM_map (outcome_resolveAssignment_renumber options h) r.body
  put _ _ _ := rfl
  id body := by simp

/-- Parameters are renumbered one by one, by `linkParameter_renumber`. -/
theorem parameters_renumbers : parameters.Renumbers fun ρ => List.map (·.renumber ρ) where
  compute h r := by
    rw [outcome_compute_parameters, outcome_compute_parameters]
    exact mapM_map (linkParameter_renumber h) r.parameters
  put _ _ _ := rfl
  id linked := by simp

/-! ### Plans -/

/-- What a name stands for among the routines of one program it stands for in another
under new numbers, and the same goes for the names in the scope of that routine. A plan
asks for no more than this. -/
structure FindsRenumbered (ρ : Renumbering) (p p' : Program) (name : String) : Prop where
  routine : p'.findRoutine? name = (p.findRoutine? name).map (Prod.map ρ.symbol (·.renumber ρ))
  locals : ∀ {found}, p.findRoutine? name = some found →
    BindsRenumbered ρ p.table p'.table found.2.scope

namespace Filling.Renumbers

variable {α : Type} {F : Filling α} {renumber : Renumbering → α → α} {p p' : Program}

/-- A plan is made for the new handle and writes the renumbered part, or fails in the
same way. The routine is found by the first field of `FindsRenumbered`, and its part is
computed by the second. `Proofs/Composition` and `Proofs/Counterparts` go from plans to
passes, each in its own way. -/
theorem plan (h : F.Renumbers renumber) {r : Parsed.Routine}
    (hfind : FindsRenumbered ρ p p' r.name) :
    F.plan p' r = (F.plan p r).map (Prod.map ρ.symbol (renumber ρ)) := by
  unfold Filling.plan findRoutine
  rw [hfind.routine]
  cases hp : p.findRoutine? r.name with
  | none => rfl
  | some found =>
      show (F.compute p'.table (ρ.scope found.2.scope) r).outcome.map _ =
        ((F.compute p.table found.2.scope r).outcome.map _).map _
      rw [h.compute (hfind.locals hp)]
      cases (F.compute p.table found.2.scope r).outcome <;> rfl

/-- A plan can be made in both programs or in neither, which is all that decides whether
a pass succeeds. -/
theorem exists_plan_iff (h : F.Renumbers renumber) {r : Parsed.Routine}
    (hfind : FindsRenumbered ρ p p' r.name) :
    (∃ w, F.plan p' r = .ok w) ↔ ∃ w, F.plan p r = .ok w := by
  rw [h.plan hfind]
  cases F.plan p r <;> simp [Except.map]

/-- The plans that are carried out are the same up to the numbers. The two lists stop at
the same routine. -/
theorem writes (h : F.Renumbers renumber) {rs : List Parsed.Routine}
    (hfind : ∀ r ∈ rs, FindsRenumbered ρ p p' r.name) :
    F.writes p' rs = (F.writes p rs).map (Prod.map ρ.symbol (renumber ρ)) := by
  induction rs with
  | nil => rfl
  | cons r rest ih =>
      obtain ⟨hr, hrest⟩ := List.forall_mem_cons.mp hfind
      unfold Filling.writes
      rw [h.plan hr, ih hrest]
      cases F.plan p r <;> rfl

end Filling.Renumbers

end Analysis

end FortranFront
