import FortranFront.Diagnostic
import FortranFront.Parsed.Program
import FortranFront.Proofs.SymbolTable
import Mathlib.Logic.Function.Basic

/-!
# `FortranFront.Proofs.Relabelling`: programs under other names, places and literals

A `Relabelling` gives every name another one, every location another one and every
literal another value. Different names stay different. Nothing of the kind is asked
of locations and literals, which may all become the same.

`relabel` is the image of a thing under a relabelling, at each type from parsed
expressions to typed programs and diagnostics. Type names, the words of attributes
and bindings to other languages are no names of the program and stay as they are,
and so do all types, intents, handles and shapes.

* `lookup_relabel`, `symbol?_relabel`: under its new name a name is bound to the
  handle it was bound to, and that leads to the image of the symbol.
* `findVariable?_relabel`, `findRoutine?_relabel`: so variables and routines are
  found as they were.
* `declare?_relabel`, `declareAll_relabel`, `addRoutine?_relabel`,
  `modifyRoutine_relabel`: every operation on an image gives the image of its
  result.
-/

set_option autoImplicit false

namespace FortranFront

/-- New names, locations and literals. No two names become one, since the analysis
compares names with each other. Nothing is asked of the rest, which it only copies. -/
structure Relabelling where
  name : String → String
  location : Location → Location
  literal : Int → Int
  name_injective : Function.Injective name

/-! ### Parsed programs -/

namespace Parsed

variable (ρ : Relabelling)

/-- The expression with the new label at each of its nodes. The operators and the shape
of the tree stay. -/
def Expr.relabel : Expr → Expr
  | .name id location => .name (ρ.name id) (ρ.location location)
  | .literal value location => .literal (ρ.literal value) (ρ.location location)
  | .binary op left right location =>
      .binary op left.relabel right.relabel (ρ.location location)

/-- The assignment with new labels on both sides and a new location. Its location need
not be the one its sides add up to, before or after. -/
def Assignment.relabel (a : Assignment) : Assignment :=
  ⟨a.target.relabel ρ, a.value.relabel ρ, ρ.location a.location⟩

/-- The attribute at its new location. Its words are not names, so an intent is read
from it as before. -/
def Attribute.relabel (a : Attribute) : Attribute := { a with location := ρ.location a.location }

/-- The declaration of the new name. The name of its type is no name of the program and
is read as before. -/
def Declaration.relabel (d : Declaration) : Declaration where
  name := ρ.name d.name
  typeName := d.typeName
  attributes := d.attributes.map (·.relabel ρ)
  location := ρ.location d.location

/-- The dummy argument under its new name. Where the old name was declared, the new one
is declared in the image. -/
def Parameter.relabel (a : Parameter) : Parameter := ⟨ρ.name a.name, ρ.location a.location⟩

/-- The routine with new labels in all its parts. Its binding names nothing of the
program, since it is a name of the other language. -/
def Routine.relabel (r : Routine) : Routine where
  form := r.form
  name := ρ.name r.name
  parameters := r.parameters.map (·.relabel ρ)
  declarations := r.declarations.map (·.relabel ρ)
  body := r.body.map (·.relabel ρ)
  binding := r.binding
  location := ρ.location r.location

/-- The program with new labels in all its routines, which stay in their order. -/
def Program.relabel (t : Program) : Program := ⟨t.routines.map (·.relabel ρ)⟩

end Parsed

/-! ### Typed programs -/

namespace Typed

variable (ρ : Relabelling)

/-- The expression with new locations and literals. Its variables are handles, not
names, so no name in it is changed. -/
def Expr.relabel : Expr → Expr
  | .var symbol scope type location => .var symbol scope type (ρ.location location)
  | .literal value type location => .literal (ρ.literal value) type (ρ.location location)
  | .binary op left right type location =>
      .binary op left.relabel right.relabel type (ρ.location location)

/-- The assignment with new labels on both sides and a new location, as on the parsed
side. -/
def Assignment.relabel (a : Assignment) : Assignment :=
  ⟨a.target.relabel ρ, a.value.relabel ρ, ρ.location a.location⟩

/-- The variable under its new name. Its type and its intent stay. -/
def Variable.relabel (v : Variable) : Variable :=
  { v with name := ρ.name v.name, location := ρ.location v.location }

/-- The kind of a routine with the new location of its result. A subroutine has none. -/
def RoutineKind.relabel : RoutineKind → RoutineKind
  | .subroutine => .subroutine
  | .function result => .function (result.relabel ρ)

/-- The routine with new labels in all its parts. Its scope is a handle and stays. -/
def Routine.relabel (r : Routine) : Routine where
  name := ρ.name r.name
  kind := r.kind.relabel ρ
  scope := r.scope
  parameters := r.parameters.map (·.relabel ρ)
  body := r.body.map (·.relabel ρ)
  binding := r.binding
  location := ρ.location r.location

/-- The variable or the routine with its new labels. Neither becomes the other. -/
def Symbol.relabel : Symbol → Symbol
  | .var v => .var (v.relabel ρ)
  | .routine r => .routine (r.relabel ρ)

end Typed

section

variable (ρ : Relabelling)

/-- The scope with the new names bound to the same handles, in the same order. -/
def Scope.relabel (s : Scope) : Scope :=
  { s with bindings := s.bindings.map fun b => (ρ.name b.1, b.2) }

/-- The table with new labels in its scopes and symbols. Each of them stays in its
place, so all handles still lead to the same things. -/
def SymbolTable.relabel (t : SymbolTable) : SymbolTable where
  scopes := t.scopes.map (·.relabel ρ)
  symbols := t.symbols.map (·.relabel ρ)

/-- The program with new labels in its table. Its routines have the same handles, so the
list of items stays. -/
def Typed.Program.relabel (p : Program) : Program := ⟨p.table.relabel ρ, p.items⟩

end

/-! ### Diagnostics -/

/-- The defect of the new name, if it is about a name. Words and types stay, since they
are not relabelled in the program either. -/
def Defect.relabel (ρ : Relabelling) : Defect → Defect
  | .undeclaredDummy name => .undeclaredDummy (ρ.name name)
  | .duplicateDefinition name => .duplicateDefinition (ρ.name name)
  | .undefinedSymbol name => .undefinedSymbol (ρ.name name)
  | defect => defect

/-- The diagnostic about the relabelled defect at the new location. -/
def Diagnostic.relabel (ρ : Relabelling) (e : Diagnostic) : Diagnostic :=
  ⟨e.defect.relabel ρ, ρ.location e.location⟩

/-- The outcome with its value changed and its diagnostic relabelled. The change of the
value is an argument, because computations of many types are compared in this way. -/
def Relabelling.outcome {α β : Type} (ρ : Relabelling) (image : α → β) :
    Except Diagnostic α → Except Diagnostic β
  | .ok a => .ok (image a)
  | .error e => .error (e.relabel ρ)

variable {ρ : Relabelling}

/-! ### Views of an image -/

/-- The type of an expression is no label, so the checks on types come out as before. -/
@[simp] theorem Typed.Expr.type_relabel (ρ : Relabelling) (e : Expr) :
    (e.relabel ρ).type = e.type := by
  cases e <;> rfl

/-- The image of a symbol has the new name. -/
@[simp] theorem Typed.Symbol.name_relabel (ρ : Relabelling) (s : Symbol) :
    (s.relabel ρ).name = ρ.name s.name := by
  cases s <;> rfl

/-- The image of a symbol is a variable if the symbol is one. -/
@[simp] theorem Typed.Symbol.toVariable?_relabel (ρ : Relabelling) (s : Symbol) :
    (s.relabel ρ).toVariable? = s.toVariable?.map (·.relabel ρ) := by
  cases s <;> rfl

/-- The image of a symbol is a routine if the symbol is one. -/
@[simp] theorem Typed.Symbol.toRoutine?_relabel (ρ : Relabelling) (s : Symbol) :
    (s.relabel ρ).toRoutine? = s.toRoutine?.map (·.relabel ρ) := by
  cases s <;> rfl

namespace Scope

/-- A name leads where it led before it was changed, since no other name was changed to
it. This is where `name_injective` is needed. The induction is on the bindings, and at
each of them the two names are equal on both sides or on neither. -/
theorem lookup_relabel (ρ : Relabelling) (s : Scope) (name : String) :
    (s.relabel ρ).lookup (ρ.name name) = s.lookup name := by
  unfold lookup relabel
  induction s.bindings with
  | nil => rfl
  | cons b rest ih =>
      have hsame : (ρ.name name == ρ.name b.1) = (name == b.1) := by
        rw [Bool.eq_iff_iff, beq_iff_eq, beq_iff_eq, ρ.name_injective.eq_iff]
      rw [List.map_cons, List.lookup_cons, List.lookup_cons, hsame]
      cases name == b.1
      · exact ih
      · rfl

/-- The new name is taken in the image of a scope if the old one was taken in the
scope. -/
@[simp] theorem contains_relabel (ρ : Relabelling) (s : Scope) (name : String) :
    (s.relabel ρ).contains (ρ.name name) = s.contains name := by
  unfold contains
  rw [lookup_relabel]

/-- A name may be bound before or after the scope gets its new labels. -/
@[simp] theorem bind_relabel (ρ : Relabelling) (s : Scope) (name : String) (id : SymbolId) :
    (s.relabel ρ).bind (ρ.name name) id = (s.bind name id).relabel ρ := by
  simp [bind, relabel]

end Scope

namespace SymbolTable

variable (ρ : Relabelling) (t : SymbolTable)

/-- A handle leads to the image of the scope it led to. -/
@[simp] theorem scope?_relabel (s : ScopeId) :
    (t.relabel ρ).scope? s = (t.scope? s).map (·.relabel ρ) := by
  simp [relabel, scope?]

/-- A handle leads to the image of the symbol it led to. Handles are not changed by a
relabelling, as they are numbers of the table and no labels of the source. -/
@[simp] theorem symbol?_relabel (id : SymbolId) :
    (t.relabel ρ).symbol? id = (t.symbol? id).map (·.relabel ρ) := by
  simp [relabel, symbol?]

/-- A new scope gets the same handle in both tables. -/
@[simp] theorem nextScope_relabel : (t.relabel ρ).nextScope = t.nextScope := by
  simp [nextScope, scopeCount, relabel]

/-- A new symbol gets the same handle in both tables. -/
@[simp] theorem nextSymbol_relabel : (t.relabel ρ).nextSymbol = t.nextSymbol := by
  simp [nextSymbol, symbolCount, relabel]

/-- The new name is bound to the handle that the old one was bound to, by the lemma for
the scope. -/
@[simp] theorem lookup_relabel (s : ScopeId) (name : String) :
    (t.relabel ρ).lookup s (ρ.name name) = t.lookup s name := by
  unfold lookup
  rw [scope?_relabel]
  cases t.scope? s with
  | none => rfl
  | some sc => exact sc.lookup_relabel ρ name

/-- A variable is found under its new name, behind the same handle. Where there is none
under the old name, there is none under the new one. Resolution and linking ask a table
nothing else. -/
theorem findVariable?_relabel (s : ScopeId) (name : String) :
    (t.relabel ρ).findVariable? s (ρ.name name) =
      (t.findVariable? s name).map (Prod.map id (·.relabel ρ)) := by
  simp only [findVariable?, lookup_relabel, symbol?_relabel]
  cases t.lookup s name with
  | none => rfl
  | some i =>
      cases hs : t.symbol? i with
      | none => simp [hs]
      | some symbol => cases hv : symbol.toVariable? <;> simp [hs, hv]

/-- A routine is found under its new name, behind the same handle, as it is for
variables. -/
theorem findRoutine?_relabel (s : ScopeId) (name : String) :
    (t.relabel ρ).findRoutine? s (ρ.name name) =
      (t.findRoutine? s name).map (Prod.map id (·.relabel ρ)) := by
  simp only [findRoutine?, lookup_relabel, symbol?_relabel]
  cases t.lookup s name with
  | none => rfl
  | some i =>
      cases hs : t.symbol? i with
      | none => simp [hs]
      | some symbol => cases hr : symbol.toRoutine? <;> simp [hs, hr]

/-! ### Operations on an image -/

/-- A scope may be opened before or after the table gets its new labels, since a new
scope binds no names. -/
theorem openScope_relabel (kind : ScopeKind) :
    (t.relabel ρ).openScope kind = (t.openScope kind).relabel ρ := by
  simp [openScope, relabel, Scope.relabel, Scope.empty]

/-- The new name is free where the old one is, and the symbol gets the same handle. So
the image of the table is the table of the image, or both declarations fail. -/
theorem declare?_relabel (s : ScopeId) (symbol : Typed.Symbol) :
    (t.relabel ρ).declare? s (symbol.relabel ρ) =
      (t.declare? s symbol).map (Prod.map id (·.relabel ρ)) := by
  unfold declare?
  rw [scope?_relabel]
  cases t.scope? s with
  | none => rfl
  | some sc =>
      simp only [Option.map_some, Typed.Symbol.name_relabel, Scope.contains_relabel]
      cases sc.contains symbol.name with
      | true => rfl
      | false => simp [relabel, nextSymbol, symbolCount]

/-- Symbols may all be declared before or after the table gets its new labels. One of
them whose name is taken is left out on both sides. The induction is on the symbols with
the table left free, and its step is `declare?_relabel`. -/
theorem declareAll_relabel (s : ScopeId) (symbols : List Typed.Symbol) :
    (t.relabel ρ).declareAll s (symbols.map (·.relabel ρ)) =
      (t.declareAll s symbols).relabel ρ := by
  induction symbols generalizing t with
  | nil => rfl
  | cons symbol rest ih =>
      have hfirst : (t.relabel ρ).declare s (symbol.relabel ρ) =
          (t.declare s symbol).relabel ρ := by
        unfold declare
        rw [declare?_relabel]
        cases t.declare? s symbol <;> rfl
      show ((t.relabel ρ).declare s (symbol.relabel ρ)).declareAll s _ = _
      rw [hfirst]
      exact ih (t.declare s symbol)

/-- A symbol is changed before or after it gets its new labels, if the change agrees
with them. The agreement is asked of every symbol, not only of the one behind the
handle. -/
theorem modify_relabel (id : SymbolId) {f f' : Typed.Symbol → Typed.Symbol}
    (hf : ∀ symbol, f' (symbol.relabel ρ) = (f symbol).relabel ρ) :
    (t.relabel ρ).modify id f' = (t.modify id f).relabel ρ := by
  refine congrArg (mk _) (Array.ext_getElem? fun i => ?_)
  show ((t.symbols.map (·.relabel ρ)).modify id.index f')[i]? =
    ((t.symbols.modify id.index f).map (·.relabel ρ))[i]?
  rw [Array.getElem?_modify, Array.getElem?_map, Array.getElem?_map, Array.getElem?_modify]
  split
  · simp only [Option.map_map]
    exact congrArg (Option.map · t.symbols[i]?) (funext hf)
  · rfl

end SymbolTable

namespace Typed.Program

variable (ρ : Relabelling) (p : Program)

/-- The program without routines has no labels, so every declaration starts from its own
image. -/
@[simp] theorem relabel_empty : empty.relabel ρ = empty := by
  simp [empty, relabel, SymbolTable.empty, SymbolTable.openScope, SymbolTable.relabel,
    Scope.empty, Scope.relabel]

/-- A routine of the image is found under its new name. This is the lemma for tables at
the unit scope. -/
theorem findRoutine?_relabel (name : String) :
    (p.relabel ρ).findRoutine? (ρ.name name) =
      (p.findRoutine? name).map (Prod.map id (·.relabel ρ)) :=
  p.table.findRoutine?_relabel ρ unitScope name

/-- A routine may be added before or after the program gets its new labels. It fails on
both sides if its name is taken, by `declare?_relabel` for the unit scope. -/
theorem addRoutine?_relabel (r : Routine) :
    (p.relabel ρ).addRoutine? (r.relabel ρ) = (p.addRoutine? r).map (·.relabel ρ) := by
  have hdeclare : (p.table.relabel ρ).declare? unitScope (.routine (r.relabel ρ)) = _ :=
    p.table.declare?_relabel ρ unitScope (.routine r)
  show ((p.table.relabel ρ).declare? unitScope (.routine (r.relabel ρ))).map _ = _
  rw [hdeclare]
  unfold addRoutine?
  cases p.table.declare? unitScope (.routine r) <;> rfl

/-- A routine is changed before or after it gets its new labels, if the change agrees
with them. A variable behind the handle is changed on neither side. -/
theorem modifyRoutine_relabel (id : SymbolId) {f f' : Routine → Routine}
    (hf : ∀ r, f' (r.relabel ρ) = (f r).relabel ρ) :
    (p.relabel ρ).modifyRoutine id f' = (p.modifyRoutine id f).relabel ρ := by
  refine congrArg (Program.mk · p.items) (p.table.modify_relabel ρ id fun symbol => ?_)
  cases symbol with
  | var v => rfl
  | routine r => exact congrArg Symbol.routine (hf r)

end Typed.Program

end FortranFront
