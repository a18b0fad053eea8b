import FortranFront.Typed.Program

/-!
# `FortranFront.Proofs.Skeleton`: a program without its parameters and bodies

The skeleton of a program is what its declaration fixes: the scopes with their
names, the variables, and of each routine everything but the linked parameters
and the resolved body. Programs with the same skeleton answer every question about
names alike.

* `findVariable?_skeleton` and `findRoutine?_skeleton`: looking a name up in the
  skeleton finds the same handle, and the skeleton of the same symbol.
* `skeleton_modifyRoutine`: a change to a routine that keeps its skeleton keeps
  that of the program. Filling in parameters and bodies is such a change, so it
  never changes the meaning of a name.
-/

set_option autoImplicit false

namespace FortranFront.Typed

/-- The routine as it was declared, before anything was filled in. Its name, kind,
scope, binding and location stay. The two parts that are taken out are just those that
passes write to. -/
def Routine.skeleton (r : Routine) : Routine := { r with parameters := [], body := [] }

/-- The symbol as it was declared. A variable is its own skeleton, as no pass writes to
variables. -/
def Symbol.skeleton (s : Symbol) : Symbol := s.mapRoutine Routine.skeleton

/-- A skeleton bears the name of the symbol. -/
@[simp] theorem Symbol.name_skeleton (s : Symbol) : s.skeleton.name = s.name := by
  cases s <;> rfl

/-- Symbols of one skeleton bear one name, since a skeleton has the name of its
symbol. -/
theorem Symbol.name_congr {s s' : Symbol} (h : s.skeleton = s'.skeleton) : s.name = s'.name := by
  rw [← s.name_skeleton, h, s'.name_skeleton]

/-- A skeleton is a variable exactly if the symbol is one, and then the same. -/
@[simp] theorem Symbol.toVariable?_skeleton (s : Symbol) :
    s.skeleton.toVariable? = s.toVariable? := by
  cases s <;> rfl

/-- A skeleton is a routine exactly if the symbol is one, and then it is that of the
routine. -/
@[simp] theorem Symbol.toRoutine?_skeleton (s : Symbol) :
    s.skeleton.toRoutine? = s.toRoutine?.map Routine.skeleton := by
  cases s <;> rfl

/-- A change that keeps the skeleton of routines keeps that of every symbol. Variables
are not changed at all. -/
theorem Symbol.skeleton_mapRoutine {f : Routine → Routine}
    (hf : ∀ r, (f r).skeleton = r.skeleton) (s : Symbol) :
    (s.mapRoutine f).skeleton = s.skeleton := by
  cases s with
  | var v => rfl
  | routine r => exact congrArg Symbol.routine (hf r)

end FortranFront.Typed

namespace FortranFront.SymbolTable

open Typed (Symbol Routine)

variable {t t' : SymbolTable}

/-- The table as the declarations have built it. The scopes are taken over as they are,
since no pass binds anything. Two tables of one skeleton give the same answer to every
question about names. -/
def skeleton (t : SymbolTable) : SymbolTable :=
  { t with symbols := t.symbols.map Symbol.skeleton }

/-- Names are bound in the skeleton as in the table. -/
@[simp] theorem lookup_skeleton (t : SymbolTable) (s : ScopeId) (name : String) :
    t.skeleton.lookup s name = t.lookup s name := rfl

/-- The skeleton has all the scopes. -/
@[simp] theorem scopeCount_skeleton (t : SymbolTable) :
    t.skeleton.scopeCount = t.scopeCount := rfl

/-- A handle leads to the skeleton of the symbol it led to. -/
@[simp] theorem symbol?_skeleton (t : SymbolTable) (id : SymbolId) :
    t.skeleton.symbol? id = (t.symbol? id).map Symbol.skeleton := by
  simp [skeleton, symbol?]

/-- A variable is found in the skeleton as it is found in the table. Variables are kept
as they are, and only routines lose what was filled in. So tables with one skeleton find
the same variables (`findVariable?_congr`). -/
@[simp] theorem findVariable?_skeleton (t : SymbolTable) (s : ScopeId) (name : String) :
    t.skeleton.findVariable? s name = t.findVariable? s name := by
  simp only [findVariable?, lookup_skeleton, symbol?_skeleton]
  cases t.lookup s name with
  | none => rfl
  | some i => cases h : t.symbol? i <;> simp [h]

/-- A routine is found in the skeleton under the same handle, without what was filled
in. -/
@[simp] theorem findRoutine?_skeleton (t : SymbolTable) (s : ScopeId) (name : String) :
    t.skeleton.findRoutine? s name =
      (t.findRoutine? s name).map (Prod.map id Routine.skeleton) := by
  simp only [findRoutine?, lookup_skeleton, symbol?_skeleton]
  cases t.lookup s name with
  | none => rfl
  | some i =>
      cases h : t.symbol? i with
      | none => simp [h]
      | some symbol => cases hr : symbol.toRoutine? <;> simp [h, hr]

/-- Tables of one skeleton find the same variable under a name. It is by this that
resolution and linking do not see what was written before them. -/
theorem findVariable?_congr (h : t.skeleton = t'.skeleton) (s : ScopeId) (name : String) :
    t.findVariable? s name = t'.findVariable? s name := by
  rw [← findVariable?_skeleton t, h, findVariable?_skeleton]

/-- Behind one handle, tables of one skeleton have symbols of one skeleton. So a symbol
is there in both tables or in neither. -/
theorem exists_symbol?_congr (h : t.skeleton = t'.skeleton) {id : SymbolId} {symbol : Symbol}
    (hs : t.symbol? id = some symbol) :
    ∃ symbol', t'.symbol? id = some symbol' ∧ symbol'.skeleton = symbol.skeleton := by
  have hsame : (t.symbol? id).map Symbol.skeleton = (t'.symbol? id).map Symbol.skeleton := by
    rw [← symbol?_skeleton, h, symbol?_skeleton]
  rw [hs, Option.map_some] at hsame
  exact Option.map_eq_some_iff.mp hsame.symm

/-- A variable is its own skeleton, so it is found as it is in every table of the
skeleton. Of routines this holds only up to their parts. -/
theorem symbol?_var_congr (h : t.skeleton = t'.skeleton) {id : SymbolId} {v : Typed.Variable}
    (hs : t.symbol? id = some (.var v)) : t'.symbol? id = some (.var v) := by
  obtain ⟨symbol, hsymbol, hskeleton⟩ := exists_symbol?_congr h hs
  cases symbol with
  | var w =>
      cases hskeleton
      exact hsymbol
  | routine r => cases hskeleton

/-- Tables of one skeleton bind the same names to the same handles. -/
theorem lookup_congr (h : t.skeleton = t'.skeleton) (s : ScopeId) (name : String) :
    t.lookup s name = t'.lookup s name := by
  rw [← lookup_skeleton t, h, lookup_skeleton]

/-- Tables of one skeleton have the same scopes. These are not changed in making the
skeleton, so there is nothing to show beyond that. -/
theorem scopes_congr (h : t.skeleton = t'.skeleton) : t.scopes = t'.scopes := by
  have hscopes : t.skeleton.scopes = t'.skeleton.scopes := by rw [h]
  exact hscopes

/-- Tables of one skeleton have equally many symbols. -/
theorem symbolCount_congr (h : t.skeleton = t'.skeleton) : t.symbolCount = t'.symbolCount := by
  have hsize : t.skeleton.symbols.size = t'.skeleton.symbols.size := by rw [h]
  simpa [skeleton, symbolCount] using hsize

/-- The symbols behind one handle in tables of one skeleton bear the same name. Reading
names is thus independent of what passes have written. -/
theorem symbolName?_congr (h : t.skeleton = t'.skeleton) (id : SymbolId) :
    (t.symbol? id).map Symbol.name = (t'.symbol? id).map Symbol.name := by
  -- Both names can be read in the skeleton, and there is but one skeleton.
  have hname : ∀ t : SymbolTable,
      (t.symbol? id).map Symbol.name = (t.skeleton.symbol? id).map Symbol.name := by
    intro t
    rw [symbol?_skeleton, Option.map_map]
    exact congrArg (Option.map · (t.symbol? id)) (funext fun s => s.name_skeleton.symm)
  rw [hname t, hname t', h]

end FortranFront.SymbolTable

namespace FortranFront.Typed.Program

variable {p q : Program}

/-- The program as it was declared. Its items are handles and stay. -/
def skeleton (p : Program) : Program := { p with table := p.table.skeleton }

/-- Programs of one skeleton have tables of one skeleton. All lemmas on tables apply to
programs through this one, so there are few lemmas on programs below. -/
theorem table_skeleton_congr (h : p.skeleton = q.skeleton) :
    p.table.skeleton = q.table.skeleton :=
  congrArg Program.table h

/-- Programs of one skeleton have the same list of routines. -/
theorem items_congr (h : p.skeleton = q.skeleton) : p.items = q.items := by
  have hitems : p.skeleton.items = q.skeleton.items := by rw [h]
  exact hitems

/-- A routine is found under a name if the unit scope binds the name to its handle. Both
parts are views of the table, like those in `SymbolTable.findVariable?_eq_some_iff`. A
name that is bound to a variable there would not do, but nothing binds one in the unit
scope. -/
theorem findRoutine?_eq_some_iff {name : String} {found : SymbolId × Routine} :
    p.findRoutine? name = some found ↔
      p.table.lookup unitScope name = some found.1 ∧
        p.table.symbol? found.1 = some (.routine found.2) := by
  constructor
  · intro h
    obtain ⟨id, hl, symbol, hs, r, hr, rfl⟩ := by
      simpa [findRoutine?, SymbolTable.findRoutine?, Option.bind_eq_some_iff] using h
    cases symbol with
    | var v => cases hr
    | routine r' =>
        cases hr
        exact ⟨hl, hs⟩
  · rintro ⟨hl, hs⟩
    simp [findRoutine?, SymbolTable.findRoutine?, hl, hs, Symbol.toRoutine?]

/-- Programs of one skeleton find routines of one skeleton under a name. The routines
themselves may differ in what was filled in. -/
theorem findRoutine?_congr (h : p.skeleton = q.skeleton) (name : String) :
    (p.findRoutine? name).map (Prod.map id Routine.skeleton) =
      (q.findRoutine? name).map (Prod.map id Routine.skeleton) := by
  show (p.table.findRoutine? unitScope name).map _ = (q.table.findRoutine? unitScope name).map _
  rw [← SymbolTable.findRoutine?_skeleton, table_skeleton_congr h,
    SymbolTable.findRoutine?_skeleton]

/-- The symbol behind a handle after the routine of some handle was changed. Only that
handle is affected, and not even that one if a variable is there. This is the frame of
all writes: what is known of other handles needs no proof after a write. -/
theorem symbol?_modifyRoutine (p : Program) (id : SymbolId) (f : Routine → Routine)
    (i : SymbolId) :
    (p.modifyRoutine id f).table.symbol? i =
      if i = id then (p.table.symbol? i).map (·.mapRoutine f) else p.table.symbol? i := by
  show (p.table.symbols.modify id.index (·.mapRoutine f))[i.index]? = _
  rw [Array.getElem?_modify]
  -- The array compares numbers, and the statement compares the handles around them.
  have hi : id.index = i.index ↔ i = id := by
    cases i; cases id; simp [eq_comm]
  simp only [hi]
  rfl

/-- A change to a routine that keeps its skeleton keeps that of the program. The symbols
are compared one by one, at their positions in the table. All writes of the passes are
such changes, since a body and parameters are no part of a skeleton. -/
theorem skeleton_modifyRoutine {f : Routine → Routine}
    (hf : ∀ r, (f r).skeleton = r.skeleton) (p : Program) (id : SymbolId) :
    (p.modifyRoutine id f).skeleton = p.skeleton := by
  have hsymbols : (p.table.symbols.modify id.index (·.mapRoutine f)).map Symbol.skeleton =
      p.table.symbols.map Symbol.skeleton := by
    apply Array.ext_getElem?
    intro i
    rw [Array.getElem?_map, Array.getElem?_map, Array.getElem?_modify]
    split
    · -- The symbol that changes, if there is one.
      cases p.table.symbols[i]? with
      | none => rfl
      | some s => exact congrArg some (Symbol.skeleton_mapRoutine hf s)
    · rfl
  exact congrArg (fun symbols => (⟨⟨p.table.scopes, symbols⟩, p.items⟩ : Program)) hsymbols

end FortranFront.Typed.Program
