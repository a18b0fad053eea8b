import FortranFront.Proofs.DummyArguments
import FortranFront.Proofs.Records

/-!
# `FortranFront.Proofs.DeclaredVariables`: variables and the records of them

Each variable that a declaration declares leaves a record. The result of a function
is a variable that no declaration declares, and it leaves none. So the records should
be those of the variables in the symbol table, the results left out, in the order of
their handles.

* `exists_recorded`: the variables of a routine are recorded in the order in which
  they are collected.
* `mem_results_layout` and `mem_results_iff_name`: the results of a program, and
  that among the variables of a routine just the one with the function's own name is
  its result.
* `declaredVariables_layout`: in a program that is laid out the other variables are
  those of the routines, one routine after the other.
* `records_of_declare`: so a program that is declared has recorded just these.
-/

set_option autoImplicit false

namespace FortranFront

/-- What the record of a declared variable says: its name, its type and its intent. All
other records are passed over. -/
def Record.declaration? : Record → Option (String × ScalarType × Intent)
  | .declaredVariable name type intent => some (name, type, intent)
  | _ => none

namespace Typed.Program

/-- The handles of the implicit results of functions, in the order of the functions. -/
def results (p : Program) : List SymbolId :=
  p.routines.filterMap fun r => r.result?.bind Expr.symbol?

/-- The variables that are not the result of a function, by increasing handle. The
handles of routines lead to no variable and drop out. -/
def declaredVariables (p : Program) : List Variable :=
  (List.range p.table.symbolCount).filterMap fun i =>
    if (⟨i⟩ : SymbolId) ∈ p.results then none
    else (p.table.symbol? ⟨i⟩).bind Symbol.toVariable?

/-- The results can be read off the skeleton of a program, as they are in the kinds of
its routines. No pass changes these, so a function keeps its result whatever is filled
into it. -/
theorem results_skeleton (p : Program) : p.skeleton.results = p.results := by
  -- The routines of the skeleton are the skeletons of the routines.
  have hroutines : p.skeleton.routines = p.routines.map Routine.skeleton := by
    show p.items.filterMap (fun id => (p.table.skeleton.symbol? id).bind Symbol.toRoutine?) = _
    unfold routines
    rw [List.map_filterMap]
    refine List.filterMap_congr fun id _ => ?_
    rw [SymbolTable.symbol?_skeleton]
    cases p.table.symbol? id <;> simp
  unfold results
  rw [hroutines, List.filterMap_map]
  rfl

/-- Programs of one skeleton have the same variables beside their results. So these may
be read in the declared program, where the closed form of `layout` gives them. A
skeleton has all variables as they are. -/
theorem declaredVariables_congr {p q : Program} (h : p.skeleton = q.skeleton) :
    p.declaredVariables = q.declaredVariables := by
  have htable := table_skeleton_congr h
  have hvariable : ∀ (p : Program) (id : SymbolId), (p.table.symbol? id).bind Symbol.toVariable? =
      (p.table.skeleton.symbol? id).bind Symbol.toVariable? := by
    intro p id
    rw [SymbolTable.symbol?_skeleton]
    cases p.table.symbol? id <;> simp
  unfold declaredVariables
  rw [← p.results_skeleton, h, q.results_skeleton, SymbolTable.symbolCount_congr htable]
  simp only [hvariable, htable]

end Typed.Program

namespace Analysis

open Typed (Program Symbol Variable)

/-! ### The variables of one routine -/

/-- What the record of a variable says. Its place is not recorded. -/
def declarationOf (v : Variable) : String × ScalarType × Intent := (v.name, v.type, v.intent)

/-- The variables that the declarations of a routine declare, in order. They are
`variablesOf` without the result. -/
def declaredLocals (r : Parsed.Routine) : List Variable :=
  (deciding r).filterMap fun d => (variableFor d).toOption

/-- The variables that declarations add to those that are known are recorded in their
order. The induction is on the declarations for whatever is known, and a declaration
that is passed over adds and records nothing of the sort. -/
theorem exists_recorded {known known' : List Variable} {ds : List Parsed.Declaration}
    (h : (ds.foldlM declareLocal known).outcome = .ok known') :
    ∃ added, known' = known ++ added ∧
      (ds.foldlM declareLocal known).records.filterMap Record.declaration? =
        added.map declarationOf := by
  induction ds generalizing known with
  | nil =>
      cases h
      exact ⟨[], (List.append_nil _).symm, rfl⟩
  | cons d ds ih =>
      rw [List.foldlM_cons, Traced.outcome_bind] at h
      obtain ⟨middle, hd, hrest⟩ := bind_eq_ok_iff.mp h
      obtain ⟨added, rfl, hadded⟩ := ih hrest
      rw [List.foldlM_cons, Traced.records_bind_of_ok _ hd, List.filterMap_append, hadded]
      -- The first declaration adds a variable and its record, or neither.
      obtain ⟨rfl, hrecords⟩ | ⟨v, rfl, hrecords⟩ := records_declareLocal hd
      · exact ⟨added, rfl, by rw [hrecords]; rfl⟩
      · exact ⟨v :: added, by simp, by rw [hrecords]; rfl⟩

/-- A routine that is declared has recorded the variables of its deciding declarations,
and not its result. -/
theorem filterMap_records_declareRoutine {p q : Program} {r : Parsed.Routine}
    (h : (declareRoutine p r).outcome = .ok q) :
    (declareRoutine p r).records.filterMap Record.declaration? =
      (declaredLocals r).map declarationOf := by
  obtain ⟨locals, hlocals, -⟩ := declareRoutine_eq_ok_iff.mp h
  obtain ⟨added, hadded, hrecords⟩ := exists_recorded hlocals
  -- Both lists come behind the result, so they are the same.
  have hsame : (resultVariable? r).toList ++ added = (resultVariable? r).toList ++ declaredLocals r :=
    hadded ▸ (localsOf_eq_ok hlocals).eq_variablesOf
  rw [records_declareRoutine h, ← List.append_cancel_left hsame, ← hrecords]
  rfl

/-! ### The results of a program -/

section Layout

variable {rs before : List Parsed.Routine} {r : Parsed.Routine}

/-- The routines of a layout are the declared ones, in order. -/
theorem routines_layout (rs : List Parsed.Routine) :
    (layout rs).routines = (withEarlier rs).map fun (before, r) =>
      declaredRoutine r ⟨extent before⟩ (scopeAfter before) := by
  show ((withEarlier rs).map fun (before, r) => routineHandle before r).filterMap _ = _
  rw [List.filterMap_map, ← List.filterMap_eq_map]
  refine List.filterMap_congr fun ⟨before, r⟩ hmem => ?_
  obtain ⟨after, rfl⟩ := mem_withEarlier.mp hmem
  show ((layout _).table.symbol? (routineHandle before r)).bind _ = _
  rw [symbol?_layout_routine]
  rfl

/-- Each function has one result, the first symbol of its block. So the results can be
told by their handles. A subroutine has none, and its first symbol may be a variable of
any sort, so it is not enough to know that a handle comes first in its block. -/
theorem mem_results_layout {id : SymbolId} :
    id ∈ (layout rs).results ↔
      ∃ before r after, rs = before ++ r :: after ∧ r.form = .function ∧ id = ⟨extent before⟩ := by
  unfold Program.results
  rw [routines_layout, List.filterMap_map, List.mem_filterMap]
  constructor
  · -- A result belongs to a routine of the layout, which has to be a function.
    rintro ⟨⟨before, r⟩, hmem, hid⟩
    obtain ⟨after, rfl⟩ := mem_withEarlier.mp hmem
    refine ⟨before, r, after, rfl, ?_⟩
    simp only [Function.comp_apply, result?_declaredRoutine] at hid
    split at hid
    · exact ⟨‹_›, (Option.some.inj hid).symm⟩
    · cases hid
  · rintro ⟨before, r, after, rfl, hform, rfl⟩
    refine ⟨(before, r), mem_withEarlier.mpr ⟨after, rfl⟩, ?_⟩
    simp [result?_declaredRoutine, hform, Typed.Expr.symbol?]

variable {after : List Parsed.Routine}

/-- A variable of a routine is a result if it has the name of the function. That a
handle is the result of another function is excluded by `Built`, as every symbol is
bound in one scope. -/
theorem mem_results_iff_name (hbuilt : (layout (before ++ r :: after)).table.Built)
    (hknown : ∀ r' ∈ before ++ r :: after, KnownAfter r' r'.declarations (variablesOf r'))
    {k : Nat} {v : Variable} (hv : (variablesOf r)[k]? = some v) :
    ⟨extent before + k⟩ ∈ (layout (before ++ r :: after)).results ↔ v.name ∈ ownNames r := by
  have hr := hknown r (List.mem_append_right before List.mem_cons_self)
  have hlookup := @lookup_layout_var before r after hr k v hv
  -- Every function has bound its name to the first symbol of its block.
  have hresult : ∀ {before' r' after'}, before ++ r :: after = before' ++ r' :: after' →
      r'.form = .function → (layout (before ++ r :: after)).table.lookup (scopeAfter before')
        r'.name = some ⟨extent before'⟩ := by
    intro before' r' after' hsplit hform
    rw [hsplit] at hknown ⊢
    have hr' := hknown r' (List.mem_append_right before' List.mem_cons_self)
    exact (SymbolTable.findVariable?_eq_some_iff.mp (findVariable?_layout_result after' hr' hform)).1
  rw [mem_results_layout, mem_ownNames]
  constructor
  · rintro ⟨before', r', after', hsplit, hform, hid⟩
    -- The symbol is bound in one scope only, so the function is the routine itself.
    rw [hid] at hlookup
    obtain ⟨hscope, hname⟩ := hbuilt.lookup_inj (hresult hsplit hform) hlookup
    have hlength : before.length = before'.length := by
      simpa [scopeAfter] using congrArg ScopeId.index hscope
    obtain ⟨rfl, hrest⟩ := List.append_inj hsplit hlength
    obtain ⟨rfl, rfl⟩ := List.cons.inj hrest
    exact ⟨hform, hname⟩
  · rintro ⟨hform, hname⟩
    rw [hname, hresult rfl hform] at hlookup
    exact ⟨before, r, after, rfl, hform, (Option.some.inj hlookup).symm⟩

/-! ### The other variables -/

/-- The variables of a block come first, so a variable at some position of the block is
at this position among them. The only symbol behind them is the routine itself, which is
no variable. -/
theorem getElem?_variablesOf {k : Nat} {v : Variable} (hk : (blockOf before r)[k]? = some (.var v)) :
    (variablesOf r)[k]? = some v := by
  obtain ⟨hlt, hget⟩ := List.getElem?_eq_some_iff.mp hk
  by_cases hlast : k < (variablesOf r).length
  · rw [blockOf, List.getElem?_append_left (by simpa using hlast), List.getElem?_map,
      Option.map_eq_some_iff] at hk
    obtain ⟨w, hw, hsame⟩ := hk
    rw [hw, Symbol.var.inj hsame]
  · -- What comes behind the variables is a routine.
    have hlength : k = (variablesOf r).length := by
      simp [blockOf] at hlt
      omega
    simp [blockOf, hlength] at hget

/-- The variable behind a symbol of a routine, unless it bears the function's own
name. -/
def declaredBy (r : Parsed.Routine) : Symbol → Option Variable
  | .var v => if v.name ∈ ownNames r then none else some v
  | .routine _ => none

/-- The result and the routine itself are the symbols of a block that are not declared.
All others come from a declaration that decides. A variable is told to be the result by
its name, which no declaration that decides has. -/
theorem filterMap_blockOf (hknown : KnownAfter r r.declarations (variablesOf r))
    (before : List Parsed.Routine) :
    (blockOf before r).filterMap (declaredBy r) = declaredLocals r := by
  obtain ⟨vs, hvs, hall⟩ := hknown
  obtain rfl : declaredLocals r = vs := List.append_cancel_left hvs
  -- A result drops out by its name.
  have hown : (resultVariable? r).toList.filterMap (declaredBy r ∘ Symbol.var) = [] := by
    rw [List.filterMap_eq_nil_iff]
    intro v hv
    have hname : v.name ∈ ownNames r := by
      rw [← names_resultVariable?]
      exact List.mem_map_of_mem hv
    simp [declaredBy, hname]
  have hothers : (declaredLocals r).filterMap (declaredBy r ∘ Symbol.var) = declaredLocals r := by
    rw [← List.filterMap_some (l := declaredLocals r), List.filterMap_filterMap]
    refine List.filterMap_congr fun v hv => ?_
    -- A declaration of the function's own name would be passed over.
    have hname : v.name ∉ ownNames r := by
      have hmem : v.name ∈ (decidingAmong (ownNames r) r.declarations).map (·.name) := by
        rw [← names_of_variableFor hall]
        exact List.mem_map_of_mem hv
      exact (mem_names_decidingAmong.mp hmem).2
    simp [declaredBy, hname]
  rw [blockOf, List.filterMap_append, List.filterMap_map, hvs, List.filterMap_append, hown, hothers]
  simp [declaredBy]

/-- Reading a list position by position is reading the list, if what is read depends on
the element only. The induction is on the list from its end, since this is where a range
grows. -/
theorem filterMap_range_length {α β : Type} {xs : List α} {g : Nat → Option β} {f : α → Option β}
    (h : ∀ k x, xs[k]? = some x → g k = f x) :
    (List.range xs.length).filterMap g = xs.filterMap f := by
  induction xs using List.reverseRecOn with
  | nil => rfl
  | append_singleton xs x ih =>
      -- The last position is that of the last element.
      have hlast : g xs.length = f x := h _ _ (by simp)
      rw [List.length_append, List.length_singleton, List.range_succ, List.filterMap_append,
        List.filterMap_append, ih fun k y hk => h k y ?_]
      · simp only [List.filterMap_cons, List.filterMap_nil, hlast]
      · rw [List.getElem?_append_left (List.getElem?_eq_some_iff.mp hk).1, hk]

/-- The variables of a layout other than the results are those that the routines
declare. The induction is on the routines from the end, and each one adds the part of
its own block. In a block `mem_results_iff_name` tells the result from the others by its
name. -/
theorem declaredVariables_layout (hbuilt : (layout rs).table.Built)
    (hknown : ∀ r ∈ rs, KnownAfter r r.declarations (variablesOf r)) :
    (layout rs).declaredVariables = rs.flatMap declaredLocals := by
  unfold Program.declaredVariables
  rw [symbolCount_layout]
  -- The handles are gone through block by block, with the results of all routines known.
  suffices hprefix : ∀ before after, rs = before ++ after →
      (List.range (extent before)).filterMap (fun i =>
        if (⟨i⟩ : SymbolId) ∈ (layout rs).results then none
        else ((layout rs).table.symbol? ⟨i⟩).bind Symbol.toVariable?) =
          before.flatMap declaredLocals from hprefix rs [] (List.append_nil rs).symm
  intro before
  induction before using List.reverseRecOn with
  | nil => exact fun _ _ => rfl
  | append_singleton before r ih =>
      intro after hsplit
      rw [List.append_assoc, List.singleton_append] at hsplit
      have hlength : (blockOf before r).length = (variablesOf r).length + 1 := by simp [blockOf]
      rw [extent_append_singleton, List.range_add, List.filterMap_append, ih (r :: after) hsplit,
        List.flatMap_append, List.flatMap_singleton, List.filterMap_map, ← hlength]
      congr 1
      subst hsplit
      have hr := hknown r (List.mem_append_right before List.mem_cons_self)
      rw [← filterMap_blockOf hr before]
      refine filterMap_range_length fun k symbol hk => ?_
      -- The position in the block says which symbol the handle leads to.
      have hsymbol := symbol?_layout_block before r after (List.getElem?_eq_some_iff.mp hk).1
      rw [Function.comp_apply, hsymbol, hk, Option.bind_some]
      cases symbol with
      | var v => simp only [mem_results_iff_name hbuilt hknown (getElem?_variablesOf hk)]; rfl
      | routine routine => exact ite_self none

end Layout

/-- A program that is declared has recorded its variables, the results left out. The
records come routine by routine, and so do the blocks of the table. By
`eq_layout_of_declare` the program is the layout of its routines, so both sides are
taken over the same list. -/
theorem records_of_declare {t : Parsed.Program} {p : Program} (h : (declare t).outcome = .ok p) :
    (declare t).records.filterMap Record.declaration? = p.declaredVariables.map declarationOf := by
  have hbuilt := built_of_declare h
  have hrecords : (declare t).records.filterMap Record.declaration? =
      t.routines.flatMap fun r => (declaredLocals r).map declarationOf :=
    Traced.filterMap_records_foldlM (f := declareRoutine) Record.declaration?
      (fun _ _ _ hstep => filterMap_records_declareRoutine hstep) h
  obtain ⟨rfl, hknown⟩ := eq_layout_of_declare h
  rw [hrecords, declaredVariables_layout hbuilt hknown, List.map_flatMap]

end Analysis

end FortranFront
