import FortranFront.Proofs.Layout

/-!
# `FortranFront.Proofs.Bindings`: all that a declared program binds

A declared program binds names in two kinds of scopes. The unit scope binds each
routine, and the scope of a routine binds its variables. `Binds` lists these
bindings, each with its number and its symbol, as they follow from the routines.

* `Binds.lookup`: a declared program binds what `Binds` lists.
* `exists_binds`: it binds nothing else.
-/

set_option autoImplicit false

namespace FortranFront.Analysis

open Typed (Program Symbol Variable)

/-- What routines bind when they are laid out: in the unit scope the name of each
routine, and in the scope of a routine the name of each of its variables. The handles
and the scopes are given by the routines before it, as in `layout`, so `withEarlier`
supplies each routine with these. -/
inductive Binds (rs : List Parsed.Routine) : ScopeId → String → SymbolId → Symbol → Prop
  | ofRoutine {before : List Parsed.Routine} {r : Parsed.Routine}
      (hr : (before, r) ∈ withEarlier rs) :
      Binds rs Program.unitScope r.name (routineHandle before r)
        (.routine (declaredRoutine r ⟨extent before⟩ (scopeAfter before)))
  | ofVariable {before : List Parsed.Routine} {r : Parsed.Routine} {k : Nat} {v : Variable}
      (hr : (before, r) ∈ withEarlier rs) (hv : (variablesOf r)[k]? = some v) :
      Binds rs (scopeAfter before) v.name ⟨extent before + k⟩ (.var v)

/-- The result of a function is the first of its variables, and therefore has the first
handle of its block. That is what `kindOf` writes into the declared routine. -/
theorem Binds.ofResult {rs before : List Parsed.Routine} {r : Parsed.Routine}
    (hr : (before, r) ∈ withEarlier rs) (hform : r.form = .function) :
    Binds rs (scopeAfter before) r.name ⟨extent before⟩
      (.var ⟨r.name, .unspecified, resultType, r.location⟩) := by
  have hfirst : (variablesOf r)[0]? = some ⟨r.name, .unspecified, resultType, r.location⟩ := by
    simp [variablesOf, resultVariable?, hform]
  exact .ofVariable hr hfirst

section Layouts

variable {t : Parsed.Program} {p : Program} {s : ScopeId} {name : String} {id : SymbolId}
  {symbol : Symbol}

/-- A declared program binds what its routines bind. That takes a proof for routines,
because a later binding of the same name would hide an earlier one: the program is built
by declarations alone (`built_of_declare`), and these never bind a name twice. -/
theorem Binds.lookup (h : Binds t.routines s name id symbol) (hp : (declare t).outcome = .ok p) :
    p.table.lookup s name = some id ∧ p.table.symbol? id = some symbol := by
  have hbuilt := built_of_declare hp
  have hbound := (declaredFrom_of_declare hp).wellBound
  -- From here on the program is the layout of its routines, in closed form.
  obtain ⟨rfl, hknown⟩ := eq_layout_of_declare hp
  cases h with
  | ofRoutine hr =>
      obtain ⟨after, hsplit⟩ := mem_withEarlier.mp hr
      rw [hsplit] at hbuilt hbound ⊢
      exact ⟨hbuilt.lookup_routine hbound symbol?_layout_routine, symbol?_layout_routine⟩
  | ofVariable hr hv =>
      obtain ⟨after, hsplit⟩ := mem_withEarlier.mp hr
      have hlocal := hknown _ (hsplit ▸ List.mem_append_right _ List.mem_cons_self)
      rw [hsplit]
      exact ⟨lookup_layout_var hlocal hv, symbol?_layout_var hv⟩

/-- Every scope of a layout but the unit scope belongs to one of its routines. Scopes
are opened one for each routine, behind the unit scope, so the position of the routine
is one less than the number of the scope. -/
theorem exists_scopeAfter {rs : List Parsed.Routine} (hs : s ≠ Program.unitScope)
    (hlt : s.index < (layout rs).table.scopeCount) :
    ∃ before r after, rs = before ++ r :: after ∧ s = scopeAfter before := by
  obtain ⟨n, hn⟩ : ∃ n, s.index = n + 1 :=
    Nat.exists_eq_succ_of_ne_zero fun h => hs (ScopeId.index_inj.mp h)
  rw [scopeCount_layout] at hlt
  have hposition : n < rs.length := by omega
  refine ⟨rs.take n, rs[n], rs.drop (n + 1), ?_, ?_⟩
  · rw [List.getElem_cons_drop, List.take_append_drop]
  · rw [← ScopeId.index_inj, scopeAfter, List.length_take_of_le (Nat.le_of_lt hposition), hn]

/-- Nothing else is bound in a declared program. In the unit scope a binding that is
found is one of the list of bindings. In the scope of a routine a name is found only if
one of the variables bears it (`lookup_layout_eq_none`), and then it is found as that
variable. A scope that was not opened binds nothing. -/
theorem exists_binds (hp : (declare t).outcome = .ok p) (hl : p.table.lookup s name = some id) :
    ∃ symbol, Binds t.routines s name id symbol := by
  obtain ⟨rfl, hknown⟩ := eq_layout_of_declare hp
  by_cases hs : s = Program.unitScope
  · subst hs
    have hfound : (unitScopeOf t.routines).bindings.lookup name = some id := hl
    obtain ⟨earlier, later, hsplit, -⟩ := List.lookup_eq_some_iff.mp hfound
    have hmem : (name, id) ∈ (unitScopeOf t.routines).bindings := by
      rw [hsplit]
      exact List.mem_append_right earlier List.mem_cons_self
    obtain ⟨⟨before, r⟩, hr, heq⟩ := List.mem_map.mp hmem
    obtain ⟨rfl, rfl⟩ := Prod.mk.inj heq
    exact ⟨_, .ofRoutine hr⟩
  -- A name is bound in `s`, so `s` was opened, and a scope behind the first is that of a
  -- routine.
  · have hlt : s.index < (layout t.routines).table.scopeCount := by
      by_contra hge
      rw [SymbolTable.lookup_eq_none_of_le (Nat.le_of_not_lt hge)] at hl
      cases hl
    obtain ⟨before, r, after, hsplit, rfl⟩ := exists_scopeAfter hs hlt
    have hlocal := hknown r (hsplit ▸ List.mem_append_right before List.mem_cons_self)
    have hr := mem_withEarlier.mpr ⟨after, hsplit⟩
    rw [hsplit] at hl
    by_cases hname : name ∈ (variablesOf r).map (·.name)
    · obtain ⟨v, hv, rfl⟩ := List.mem_map.mp hname
      obtain ⟨k, hk⟩ := List.getElem?_of_mem hv
      rw [lookup_layout_var hlocal hk] at hl
      obtain rfl := Option.some.inj hl
      exact ⟨_, .ofVariable hr hk⟩
    · rw [lookup_layout_eq_none hname] at hl
      cases hl

end Layouts

end FortranFront.Analysis
