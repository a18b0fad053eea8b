import FortranFront.Proofs.Declared
import Mathlib.Data.List.Nodup

/-!
# `FortranFront.Proofs.Layout`: a declared program in closed form

Declaring a program opens scopes and declares symbols one at a time. What comes of
it can be written down at once: `layout` has the unit scope and one scope for each
routine, and for each routine one block of symbols, its variables with the routine
itself behind them.

* `SymbolTable.declareAll_openScope`: symbols of different names that are declared
  in a new scope get consecutive handles.
* `layout_step`: declaring one routine more appends one scope and one block.
* `eq_layout_of_declare`: so a program that is declared is the layout of its
  routines.
* `scope?_layout`, `symbol?_layout_var` and `symbol?_layout_routine`: the scope and
  the block of the routine that comes after some others.
* `findVariable?_layout` and `lookup_layout_eq_none`: the scope of a routine binds
  its variables in order and nothing else.
-/

set_option autoImplicit false

namespace FortranFront

/-- Names that are bound to consecutive handles. This is what the bindings of a scope
look like when its symbols are declared in a row. -/
def consecutive (first : Nat) (names : List String) : List (String × SymbolId) :=
  names.mapIdx fun k name => (name, ⟨first + k⟩)

/-- The first name has the first handle, and the others have those behind it. -/
theorem consecutive_cons (first : Nat) (name : String) (names : List String) :
    consecutive first (name :: names) = (name, ⟨first⟩) :: consecutive (first + 1) names := by
  unfold consecutive
  rw [List.mapIdx_cons]
  congr 2
  funext k n
  rw [Nat.add_right_comm, Nat.add_assoc]

/-- One more name at the end has the handle behind all the others. A declaration adds a
name in just this way. -/
theorem consecutive_append_singleton (first : Nat) (names : List String) (name : String) :
    consecutive first (names ++ [name]) =
      consecutive first names ++ [(name, ⟨first + names.length⟩)] :=
  List.mapIdx_concat

/-- Of names that are all different, each is bound to the handle of its position. If one
of them came twice, the first would be found. The induction is on the names, and the
position goes down with it. -/
theorem lookup_consecutive {first k : Nat} {names : List String} {name : String}
    (hnodup : names.Nodup) (hk : names[k]? = some name) :
    (consecutive first names).lookup name = some ⟨first + k⟩ := by
  induction names generalizing first k with
  | nil => cases hk
  | cons n rest ih =>
      rw [consecutive_cons, List.lookup_cons]
      cases k with
      | zero =>
          obtain rfl : n = name := by simpa using hk
          simp
      | succ k =>
          have hrest : rest[k]? = some name := by simpa using hk
          -- The first name is another one, since the name comes later.
          have hne : name ≠ n := by
            rintro rfl
            exact (List.nodup_cons.mp hnodup).1 (List.mem_of_getElem? hrest)
          rw [beq_eq_false_iff_ne.mpr hne, ih (List.nodup_cons.mp hnodup).2 hrest,
            Nat.add_right_comm, Nat.add_assoc]

/-- A name that is not among them is not bound. -/
theorem lookup_consecutive_eq_none {first : Nat} {names : List String} {name : String}
    (h : name ∉ names) : (consecutive first names).lookup name = none := by
  induction names generalizing first with
  | nil => rfl
  | cons n rest ih =>
      obtain ⟨hne, hrest⟩ := not_or.mp (List.mem_cons.not.mp h)
      rw [consecutive_cons, List.lookup_cons, beq_eq_false_iff_ne.mpr hne, ih hrest]

namespace SymbolTable

open Typed (Symbol)

/-- A name that is free in the last scope is bound there to the next handle. No other
scope is touched. -/
theorem declare_push {scopes : Array Scope} {symbols : Array Symbol} {last : Scope}
    {symbol : Symbol} (hfree : last.contains symbol.name = false) :
    (⟨scopes.push last, symbols⟩ : SymbolTable).declare ⟨scopes.size⟩ symbol =
      ⟨scopes.push (last.bind symbol.name ⟨symbols.size⟩), symbols.push symbol⟩ := by
  have hset : ∀ sc : Scope, (scopes.push last).setIfInBounds scopes.size sc = scopes.push sc := by
    intro sc
    apply Array.toList_inj.mp
    simp
  simp [declare, declare?, scope?, hfree, nextSymbol, symbolCount, hset]

/-- Symbols of different names that are declared in a new scope are bound there in their
order, to consecutive handles. The induction is on the symbols from the end, since each
one is declared behind those before it. Their names have to be different, as a name that
is taken is refused. For the variables of a routine `KnownAfter.nodup_names` says so. -/
theorem declareAll_openScope (t : SymbolTable) (kind : ScopeKind) {symbols : List Symbol}
    (hnodup : (symbols.map Symbol.name).Nodup) :
    (t.openScope kind).declareAll t.nextScope symbols =
      ⟨t.scopes.push ⟨kind, consecutive t.symbolCount (symbols.map Symbol.name)⟩,
        t.symbols ++ symbols.toArray⟩ := by
  induction symbols using List.reverseRecOn with
  | nil => simp [declareAll, openScope, consecutive, Scope.empty]
  | append_singleton symbols symbol ih =>
      rw [List.map_append, List.nodup_append] at hnodup
      -- The names are different, so the last one is still free when its turn comes.
      have hnew : symbol.name ∉ symbols.map Symbol.name := fun hmem =>
        hnodup.2.2 _ hmem _ List.mem_cons_self rfl
      have hfree : (Scope.mk kind (consecutive t.symbolCount
          (symbols.map Symbol.name))).contains symbol.name = false := by
        simp [Scope.contains, Scope.lookup, lookup_consecutive_eq_none hnew]
      have hlast : (t.openScope kind).declareAll t.nextScope (symbols ++ [symbol]) =
          ((t.openScope kind).declareAll t.nextScope symbols).declare t.nextScope symbol :=
        List.foldl_append
      rw [hlast, ih hnodup.1, nextScope, scopeCount, declare_push hfree]
      simp [Scope.bind, consecutive_append_singleton, symbolCount]

end SymbolTable

namespace Analysis

open Typed (Program Symbol Variable)

/-! ### The variables of a routine -/

/-- The variables of a routine whose declarations are all as they should be: its result,
and one for each declaration that decides. It may be read of any routine, but where a
declaration has a violation its variable is missing. -/
def variablesOf (r : Parsed.Routine) : List Variable :=
  (resultVariable? r).toList ++ (deciding r).filterMap fun d => (variableFor d).toOption

/-- Declarations without a violation have just the variables that are theirs, so nothing
is dropped from the list. -/
theorem filterMap_variableFor {ds : List Parsed.Declaration} {vs : List Variable}
    (h : List.Forall₂ (fun d v => variableFor d = .ok v) ds vs) :
    ds.filterMap (fun d => (variableFor d).toOption) = vs := by
  induction h with
  | nil => rfl
  | cons hv _ ih =>
      rw [List.filterMap_cons, hv, ih]
      rfl

/-- The variables that are collected, if there is nothing to complain of, are those of
`variablesOf`. So the closed form and the walk agree. -/
theorem KnownAfter.eq_variablesOf {r : Parsed.Routine} {locals : List Variable}
    (h : KnownAfter r r.declarations locals) : locals = variablesOf r := by
  obtain ⟨vs, rfl, hvs⟩ := h
  rw [variablesOf, deciding, filterMap_variableFor hvs]

/-- A routine has no two variables of one name. The result has the name of the function,
and a declaration of that name does not decide. -/
theorem KnownAfter.nodup_names {r : Parsed.Routine} {before : List Parsed.Declaration}
    {locals : List Variable} (h : KnownAfter r before locals) :
    (locals.map (·.name)).Nodup := by
  obtain ⟨vs, rfl, hvs⟩ := h
  rw [List.map_append, names_resultVariable?, names_of_variableFor hvs, List.nodup_append]
  refine ⟨?_, nodup_names_decidingAmong _ _, fun n htaken n' hn' => ?_⟩
  · unfold ownNames
    cases r.form <;> simp
  · rintro rfl
    exact (mem_names_decidingAmong.mp hn').2 htaken

/-! ### The layout of a program -/

/-- How many symbols some routines take, themselves and their variables. This is where
the block of the next routine starts. -/
def extent (rs : List Parsed.Routine) : Nat := (rs.flatMap variablesOf).length + rs.length

/-- The handle of a routine that is declared after some others. Its variables come
first, as it is declared when they are collected. -/
def routineHandle (before : List Parsed.Routine) (r : Parsed.Routine) : SymbolId :=
  ⟨extent before + (variablesOf r).length⟩

/-- The scope of the routine that is declared after some others. The unit scope is in
front of all of them. -/
def scopeAfter (before : List Parsed.Routine) : ScopeId := ⟨before.length + 1⟩

/-- The symbols that a routine takes, after those of some others. The others matter for
the numbers in the routine only. -/
def blockOf (before : List Parsed.Routine) (r : Parsed.Routine) : List Symbol :=
  (variablesOf r).map .var ++ [.routine (declaredRoutine r ⟨extent before⟩ (scopeAfter before))]

/-- The scope that the names of routines are bound in. Each is bound to the end of its
block. -/
def unitScopeOf (rs : List Parsed.Routine) : Scope :=
  ⟨.unit, (withEarlier rs).map fun (before, r) => (r.name, routineHandle before r)⟩

/-- The scope that the names of a routine are bound in. Only its variables are in it,
and the routine is bound in the unit scope. -/
def routineScopeOf (before : List Parsed.Routine) (r : Parsed.Routine) : Scope :=
  ⟨.routine, consecutive (extent before) ((variablesOf r).map (·.name))⟩

/-- The program that routines are declared as, as long as nothing is wrong with them. It
is written down without a fold, so what a handle leads to can be read off it. -/
def layout (rs : List Parsed.Routine) : Program where
  table.scopes :=
    (unitScopeOf rs :: (withEarlier rs).map fun (before, r) => routineScopeOf before r).toArray
  table.symbols := ((withEarlier rs).flatMap fun (before, r) => blockOf before r).toArray
  items := (withEarlier rs).map fun (before, r) => routineHandle before r

/-- One more routine takes as many symbols more as it has variables, and one for
itself. -/
theorem extent_append_singleton (rs : List Parsed.Routine) (r : Parsed.Routine) :
    extent (rs ++ [r]) = extent rs + ((variablesOf r).length + 1) := by
  simp [extent]
  omega

/-- There is one scope for each routine and the unit scope. -/
@[simp] theorem scopeCount_layout (rs : List Parsed.Routine) :
    (layout rs).table.scopeCount = rs.length + 1 := by
  simp [layout, SymbolTable.scopeCount, withEarlier]

/-- The blocks have as many symbols as the routines take. The induction is from the end,
where `withEarlier` adds its last entry. -/
@[simp] theorem symbolCount_layout (rs : List Parsed.Routine) :
    (layout rs).table.symbolCount = extent rs := by
  show (List.toArray _).size = _
  rw [List.size_toArray]
  induction rs using List.reverseRecOn with
  | nil => rfl
  | append_singleton rs r ih =>
      rw [withEarlier_append_singleton, List.flatMap_append, List.length_append, ih,
        extent_append_singleton]
      simp [blockOf]

/-- The scope that is next is that of the routine that comes next. -/
theorem nextScope_layout (rs : List Parsed.Routine) :
    (layout rs).table.nextScope = scopeAfter rs := by
  rw [SymbolTable.nextScope, scopeCount_layout]
  rfl

/-- The symbol that is next is the first of the next block. -/
theorem nextSymbol_layout (rs : List Parsed.Routine) :
    (layout rs).table.nextSymbol = ⟨extent rs⟩ := by
  rw [SymbolTable.nextSymbol, symbolCount_layout]

/-- One routine more has one scope more, a binding more in the unit scope, a block more
of symbols and one more handle. The scope is pushed before the unit scope is changed, in
the order of `declareRoutine`. -/
theorem layout_append_singleton (rs : List Parsed.Routine) (r : Parsed.Routine) :
    layout (rs ++ [r]) =
      { table.scopes := ((layout rs).table.scopes.push (routineScopeOf rs r)).setIfInBounds 0
          ((unitScopeOf rs).bind r.name (routineHandle rs r))
        table.symbols := (layout rs).table.symbols ++ (blockOf rs r).toArray
        items := (layout rs).items ++ [routineHandle rs r] } := by
  simp [layout, withEarlier_append_singleton, unitScopeOf, Scope.bind]

/-- The variables of the next routine go into a scope behind the others and behind all
symbols. This is `declareAll_openScope` for names that are known to be different. -/
theorem localTable_layout {r : Parsed.Routine} (before : List Parsed.Routine)
    (hknown : KnownAfter r r.declarations (variablesOf r)) :
    localTable (layout before) (variablesOf r) =
      ⟨(layout before).table.scopes.push (routineScopeOf before r),
        (layout before).table.symbols ++ ((variablesOf r).map Symbol.var).toArray⟩ := by
  have hnames : ((variablesOf r).map Symbol.var).map Symbol.name =
      (variablesOf r).map (·.name) := by
    rw [List.map_map]
    rfl
  unfold localTable
  rw [SymbolTable.declareAll_openScope _ _ (hnames ▸ hknown.nodup_names), hnames,
    symbolCount_layout]
  rfl

/-- Declaring one routine more appends its scope and its block. So the closed form is
kept by each step of the walk. What the step does is read off `declareRoutine_eq_ok_iff`
and compared with `layout_append_singleton` field by field. -/
theorem layout_step {before : List Parsed.Routine} {r : Parsed.Routine} {q : Program}
    (h : (declareRoutine (layout before) r).outcome = .ok q) : q = layout (before ++ [r]) := by
  obtain ⟨locals, hlocals, -, hadd⟩ := declareRoutine_eq_ok_iff.mp h
  have hknown := localsOf_eq_ok hlocals
  obtain rfl := hknown.eq_variablesOf
  rw [localTable_layout before hknown, nextScope_layout, nextSymbol_layout] at hadd
  -- The routine itself goes into the first scope and gets the handle after its variables.
  obtain ⟨⟨id, table⟩, hdeclare, rfl⟩ := Option.map_eq_some_iff.mp hadd
  obtain ⟨sc, hsc, -, hresult⟩ := SymbolTable.declare?_eq_some_iff.mp hdeclare
  obtain rfl : unitScopeOf before = sc := by
    simpa [SymbolTable.scope?, Program.unitScope, layout] using hsc
  -- The size of the table is what makes the next handle that of the routine.
  have hsize : (layout before).table.symbols.size = extent before := symbolCount_layout before
  have hnext : SymbolTable.nextSymbol ⟨(layout before).table.scopes.push (routineScopeOf before r),
      (layout before).table.symbols ++ ((variablesOf r).map Symbol.var).toArray⟩ =
        routineHandle before r := by
    simp [SymbolTable.nextSymbol, SymbolTable.symbolCount, hsize, routineHandle]
  rw [hnext] at hresult
  obtain ⟨rfl, rfl⟩ := Prod.mk.inj hresult
  rw [layout_append_singleton]
  simp [Program.unitScope, blockOf, declaredRoutine, Symbol.name]

/-- A program that is declared is the layout of its routines, whose variables can all be
collected. `layout_step` is the step of the invariant, and the empty layout is its
start. Results about declared programs need no induction of their own after this. -/
theorem eq_layout_of_declare {t : Parsed.Program} {p : Program}
    (h : (declare t).outcome = .ok p) :
    p = layout t.routines ∧
      ∀ r ∈ t.routines, KnownAfter r r.declarations (variablesOf r) := by
  rw [declare, Traced.outcome_foldlM] at h
  refine foldlM_invariant (fun before p => p = layout before ∧
    ∀ r ∈ before, KnownAfter r r.declarations (variablesOf r)) (fun before p r q hp hstep => ?_)
    ⟨rfl, by simp⟩ h
  obtain ⟨rfl, hbefore⟩ := hp
  obtain ⟨locals, hlocals, -⟩ := declareRoutine_eq_ok_iff.mp hstep
  have hknown := localsOf_eq_ok hlocals
  rw [hknown.eq_variablesOf] at hknown
  refine ⟨layout_step hstep, fun other hother => ?_⟩
  -- The routine is an earlier one or the one that has just been declared.
  rcases List.mem_append.mp hother with hold | hnew
  · exact hbefore other hold
  · rwa [List.mem_singleton.mp hnew]

/-- Every symbol of a layout is in the block of one of the routines, so it is a variable
or a routine that was declared there. -/
theorem exists_blockOf_of_symbol?_layout {rs : List Parsed.Routine} {id : SymbolId}
    {symbol : Symbol} (h : (layout rs).table.symbol? id = some symbol) :
    ∃ before r, symbol ∈ blockOf before r := by
  have hmem : symbol ∈ (withEarlier rs).flatMap fun (before, r) => blockOf before r :=
    List.mem_of_getElem? (by rw [← List.getElem?_toArray]; exact h)
  obtain ⟨⟨before, r⟩, -, hblock⟩ := List.mem_flatMap.mp hmem
  exact ⟨before, r, hblock⟩

/-! ### One routine of a layout -/

variable (before : List Parsed.Routine) (r : Parsed.Routine) (after : List Parsed.Routine)

/-- The first scope binds the routines and is there even if there are none. -/
theorem scope?_layout_unitScope (rs : List Parsed.Routine) :
    (layout rs).table.scope? Program.unitScope = some (unitScopeOf rs) := rfl

/-- The scope of a routine is the one after those of the routines before it. What comes
after it is not read. All lemmas on the names of a routine in a layout begin here. -/
theorem scope?_layout :
    (layout (before ++ r :: after)).table.scope? (scopeAfter before) =
      some (routineScopeOf before r) := by
  obtain ⟨rest, hsplit⟩ := withEarlier_split before r after
  have hlength : (withEarlier before).length = before.length := by simp [withEarlier]
  simp [layout, SymbolTable.scope?, scopeAfter, hsplit, hlength]

/-- The block of a routine begins behind those of the routines before it, which take up
`extent before` symbols. What is in the block is then found by its position. -/
theorem symbol?_layout_block {k : Nat} (hk : k < (blockOf before r).length) :
    (layout (before ++ r :: after)).table.symbol? ⟨extent before + k⟩ = (blockOf before r)[k]? := by
  obtain ⟨rest, hsplit⟩ := withEarlier_split before r after
  have hlength : ((withEarlier before).flatMap fun (before, r) => blockOf before r).length =
      extent before := by
    rw [← symbolCount_layout]
    rfl
  show (List.toArray _)[extent before + k]? = _
  rw [List.getElem?_toArray, hsplit, List.flatMap_append, List.flatMap_cons,
    List.getElem?_append_right (by omega), hlength, Nat.add_sub_cancel_left,
    List.getElem?_append_left hk]

variable {before r after}

/-- The variables of a routine are the first symbols of its block, in their order. -/
theorem symbol?_layout_var {k : Nat} {v : Variable} (hv : (variablesOf r)[k]? = some v) :
    (layout (before ++ r :: after)).table.symbol? ⟨extent before + k⟩ = some (.var v) := by
  obtain ⟨hk, -⟩ := List.getElem?_eq_some_iff.mp hv
  rw [symbol?_layout_block before r after (by simp [blockOf]; omega), blockOf,
    List.getElem?_append_left (by simpa using hk), List.getElem?_map, hv]
  rfl

/-- The routine itself is the last symbol of its block, with the handles it was declared
with. -/
theorem symbol?_layout_routine :
    (layout (before ++ r :: after)).table.symbol? (routineHandle before r) =
      some (.routine (declaredRoutine r ⟨extent before⟩ (scopeAfter before))) := by
  rw [routineHandle, symbol?_layout_block before r after (by simp [blockOf])]
  simp [blockOf]

/-- The scope of a routine binds each of its variables to the handle of its position. No
other variable has its name, by `KnownAfter.nodup_names`. -/
theorem lookup_layout_var (hknown : KnownAfter r r.declarations (variablesOf r)) {k : Nat}
    {v : Variable} (hv : (variablesOf r)[k]? = some v) :
    (layout (before ++ r :: after)).table.lookup (scopeAfter before) v.name =
      some ⟨extent before + k⟩ := by
  rw [SymbolTable.lookup, scope?_layout]
  exact lookup_consecutive hknown.nodup_names (by rw [List.getElem?_map, hv]; rfl)

/-- The scope of a routine binds no other name. That of another routine is not found
from inside either. -/
theorem lookup_layout_eq_none {name : String} (h : name ∉ (variablesOf r).map (·.name)) :
    (layout (before ++ r :: after)).table.lookup (scopeAfter before) name = none := by
  rw [SymbolTable.lookup, scope?_layout]
  exact lookup_consecutive_eq_none h

/-- A variable of a routine is found in its scope under its name. Resolution and linking
look it up like this. The position `k` among the variables of the routine gives the
handle, so two variables can be told apart by their places. -/
theorem findVariable?_layout (hknown : KnownAfter r r.declarations (variablesOf r)) {k : Nat}
    {v : Variable} (hv : (variablesOf r)[k]? = some v) :
    (layout (before ++ r :: after)).table.findVariable? (scopeAfter before) v.name =
      some (⟨extent before + k⟩, v) :=
  SymbolTable.findVariable?_eq_some_iff.mpr ⟨lookup_layout_var hknown hv, symbol?_layout_var hv⟩

end Analysis

end FortranFront
