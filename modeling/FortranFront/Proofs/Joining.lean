import FortranFront.Proofs.Renumbering

/-!
# `FortranFront.Proofs.Joining`: two symbol tables as one

A table `beside` another is joined with it: the two unit scopes become one, all
other scopes and the symbols of the second table come after those of the first,
and the handles of the second are shifted by as many as come before. The names of
the shared unit scope are those of the first table and then those of the second.

* `scope?_beside_unitScope`, `scope?_beside_left`, `scope?_beside_right` and
  `symbol?_beside_left`, `symbol?_beside_right`: what is behind each handle of the
  joined table. By `ext_beside` there is nothing else in it.
* `carries_beside_left` and `carries_beside_right`: names lead where they led in
  their own table, up to the shift.
* `openScope_beside`, `declare?_beside` and `declareAll_beside`: what is done to the
  second table may as well be done to the joined one. Only a name that the first
  table has in its unit scope cannot be declared there again.
-/

set_option autoImplicit false

namespace FortranFront

open Typed (Program Symbol)

/-- The names of both scopes, those of the first before those of the second. A name that
both have leads to what the first binds it to. -/
def Scope.join (a b : Scope) : Scope := { a with bindings := a.bindings ++ b.bindings }

/-- A name is looked up in the first scope and then in the second, as in two lists one
behind the other. -/
theorem Scope.lookup_join (a b : Scope) (name : String) :
    (a.join b).lookup name = (a.lookup name).or (b.lookup name) :=
  List.lookup_append

/-- A name that the second scope binds last is the last one of both. -/
theorem Scope.join_bind (a b : Scope) (name : String) (id : SymbolId) :
    a.join (b.bind name id) = (a.join b).bind name id := by
  simp [join, bind]

/-- A name is bound to the new number before or after the scope is renumbered. -/
theorem Scope.renumber_bind (ρ : Renumbering) (s : Scope) (name : String) (id : SymbolId) :
    (s.bind name id).renumber ρ = (s.renumber ρ).bind name (ρ.symbol id) := by
  simp [renumber, bind]

/-- The scopes of two tables. The first scope of each is its unit scope, and these two
become one. The other scopes stay apart, and those of the second table come last. If one
of the lists is empty there is nothing to share. -/
def joinScopes : List Scope → List Scope → List Scope
  | a :: as, b :: bs => a.join b :: (as ++ bs)
  | as, bs => as ++ bs

/-- What stands at each place: the shared scope, then the others of the first list, then
those of the second, moved by as many. -/
theorem getElem?_joinScopes (a b : Scope) (as bs : List Scope) (i : Nat) :
    (joinScopes (a :: as) (b :: bs))[i]? =
      if i = 0 then some (a.join b)
      else if i ≤ as.length then (a :: as)[i]? else (b :: bs)[i - as.length]? := by
  cases i with
  | zero => rfl
  | succ i =>
      simp only [joinScopes, List.getElem?_cons_succ, List.getElem?_append, Nat.succ_ne_zero,
        if_false]
      by_cases hi : i < as.length
      · rw [if_pos hi, if_pos (by omega)]
      · have hsub : i + 1 - as.length = (i - as.length) + 1 := by omega
        rw [if_neg hi, if_neg (by omega), hsub, List.getElem?_cons_succ]

namespace SymbolTable

/-- The scopes and symbols of two tables, whose handles must fit already. Nothing is
renumbered here. -/
def join (t u : SymbolTable) : SymbolTable where
  scopes := (joinScopes t.scopes.toList u.scopes.toList).toArray
  symbols := t.symbols ++ u.symbols

/-- The table with another one after it, whose handles are made to fit. The table has
its unit scope and `n` others, so the other scopes of the second table move up by `n`,
and its symbols by the symbols of the first. -/
def beside (t : SymbolTable) (n : Nat) (u : SymbolTable) : SymbolTable :=
  t.join (u.renumber (.shift n t.symbolCount))

end SymbolTable

namespace Typed.Program

/-- The routines of two programs, whose handles must fit already. The items of the
second come after those of the first, as its routines do in the source. -/
def join (p q : Program) : Program := ⟨p.table.join q.table, p.items ++ q.items⟩

/-- The program of `n` routines with another one after it, whose handles are made to
fit. Each routine has one scope, so `n` is also the number of scopes besides the unit
scope. -/
def beside (p : Program) (n : Nat) (q : Program) : Program :=
  p.join (q.renumber (.shift n p.table.symbolCount))

end Typed.Program

namespace SymbolTable

/-- Tables with the same views are the same. A table is nothing but its scopes and
symbols, and the views give these place by place. -/
theorem ext_views {t u : SymbolTable} (hscope : ∀ s, t.scope? s = u.scope? s)
    (hsymbol : ∀ id, t.symbol? id = u.symbol? id) : t = u := by
  have hscopes : t.scopes = u.scopes := Array.ext_getElem? fun i => hscope ⟨i⟩
  have hsymbols : t.symbols = u.symbols := Array.ext_getElem? fun i => hsymbol ⟨i⟩
  obtain ⟨scopes, symbols⟩ := t
  obtain ⟨scopes', symbols'⟩ := u
  cases hscopes
  cases hsymbols
  rfl

/-! ### The views of two tables side by side -/

section Views

variable {t u : SymbolTable} {n : Nat}

/-- A table that has scopes has a first one, which is the unit scope. With it
`joinScopes` can be unfolded. -/
theorem exists_cons (ht : 0 < t.scopeCount) :
    ∃ a as, t.scopes.toList = a :: as ∧ as.length + 1 = t.scopeCount := by
  cases h : t.scopes.toList with
  | nil => simp [scopeCount, ← Array.length_toList, h] at ht
  | cons a as => exact ⟨a, as, rfl, by simp [scopeCount, ← Array.length_toList, h]⟩

/-- Behind the handles of the first table and those after them. The two lemmas that
follow are its two cases, stated with handles of the table they are about. -/
theorem symbol?_beside (t u : SymbolTable) (n : Nat) (id : SymbolId) :
    (t.beside n u).symbol? id =
      if id.index < t.symbolCount then t.symbol? id
      else (u.symbol? ⟨id.index - t.symbolCount⟩).map (·.renumber (.shift n t.symbolCount)) := by
  rw [← symbol?_renumber]
  exact Array.getElem?_append

/-- A handle of the first table leads where it did. Its symbol keeps its numbers as
well. -/
theorem symbol?_beside_left {id : SymbolId} (hid : id.index < t.symbolCount) :
    (t.beside n u).symbol? id = t.symbol? id := by
  rw [symbol?_beside, if_pos hid]

/-- A handle of the second table leads where it did, under its new number. The symbol
there has new numbers too. -/
theorem symbol?_beside_right (t u : SymbolTable) (n : Nat) (id : SymbolId) :
    (t.beside n u).symbol? ((Renumbering.shift n t.symbolCount).symbol id) =
      (u.symbol? id).map (·.renumber (.shift n t.symbolCount)) := by
  have hback : (⟨id.index + t.symbolCount - t.symbolCount⟩ : SymbolId) = id := by
    rw [Nat.add_sub_cancel]
  rw [symbol?_beside, if_neg (by simp [Renumbering.shift])]
  simp only [Renumbering.shift, hback]

/-- The scopes of two tables are those of both together, and the first is joined of two.
The case distinction is on the number of the scope, and the three lemmas that follow are
its cases. -/
theorem scope?_beside (ht : t.scopeCount = n + 1) (hu : 0 < u.scopeCount) (s : ScopeId) :
    (t.beside n u).scope? s =
      if s.index = 0 then
        (t.scope? s).bind fun a =>
          (u.scope? s).map fun b => a.join (b.renumber (.shift n t.symbolCount))
      else if s.index ≤ n then t.scope? s
      else (u.scope? ⟨s.index - n⟩).map (·.renumber (.shift n t.symbolCount)) := by
  unfold beside
  generalize Renumbering.shift n t.symbolCount = ρ
  obtain ⟨a, as, hta, hlength⟩ := exists_cons (t := t) (by omega)
  obtain ⟨b, bs, hub, -⟩ := exists_cons hu
  have hn : as.length = n := by omega
  have hjoin : (t.join (u.renumber ρ)).scopes.toList =
      joinScopes (a :: as) ((b :: bs).map (·.renumber ρ)) := by
    simp [join, renumber, hta, hub]
  have ht? : ∀ i, t.scopes[i]? = (a :: as)[i]? := fun i => by rw [← hta, Array.getElem?_toList]
  have hu? : ∀ i, u.scopes[i]? = (b :: bs)[i]? := fun i => by rw [← hub, Array.getElem?_toList]
  unfold scope?
  rw [← Array.getElem?_toList, hjoin, List.map_cons, getElem?_joinScopes, hn, ht?, hu?, hu?,
    ← List.map_cons, List.getElem?_map]
  -- Only the place of the unit scope is special in the two lists.
  by_cases hs : s.index = 0
  · simp [hs]
  · simp [hs]

/-- The unit scope has the names of both, those of the second table with new numbers
behind them. It is the one scope that the two tables share, and so the only place where
a name of one can hide a name of the other. -/
theorem scope?_beside_unitScope (ht : t.scopeCount = n + 1) (hu : 0 < u.scopeCount) :
    (t.beside n u).scope? Program.unitScope =
      (t.scope? Program.unitScope).bind fun a => (u.scope? Program.unitScope).map fun b =>
        a.join (b.renumber (.shift n t.symbolCount)) := by
  have hindex : Program.unitScope.index = 0 := rfl
  rw [scope?_beside ht hu, if_pos hindex]

/-- The other scopes of the first table are what they were, under their old numbers. -/
theorem scope?_beside_left (ht : t.scopeCount = n + 1) (hu : 0 < u.scopeCount) {s : ScopeId}
    (hs : s ≠ Program.unitScope) (hle : s.index ≤ n) :
    (t.beside n u).scope? s = t.scope? s := by
  have hindex : s.index ≠ 0 := fun h => hs (ScopeId.index_inj.mp h)
  rw [scope?_beside ht hu, if_neg hindex, if_pos hle]

/-- The other scopes of the second table are what they were, under new numbers. Their
places have moved up by `n`. -/
theorem scope?_beside_right (ht : t.scopeCount = n + 1) (hu : 0 < u.scopeCount) {s : ScopeId}
    (hs : s ≠ Program.unitScope) :
    (t.beside n u).scope? ((Renumbering.shift n t.symbolCount).scope s) =
      (u.scope? s).map (·.renumber (.shift n t.symbolCount)) := by
  have hindex : s.index ≠ 0 := fun h => hs (ScopeId.index_inj.mp h)
  have hback : (⟨s.index + n - n⟩ : ScopeId) = s := by
    rw [Nat.add_sub_cancel]
  rw [Renumbering.scope_shift hs, scope?_beside ht hu, if_neg (by simp; omega),
    if_neg (by simp; omega), hback]

/-- There is nothing in the table besides the shared unit scope, the other scopes of
both tables, and the symbols of both. So two tables are the same if they agree on these
five kinds of handles. It is how an operation on both tables is compared with the
operation on the second. -/
theorem ext_beside {x y : SymbolTable} {m : Nat}
    (hunit : x.scope? Program.unitScope = y.scope? Program.unitScope)
    (hleft : ∀ s ≠ Program.unitScope, s.index ≤ n → x.scope? s = y.scope? s)
    (hright : ∀ s ≠ Program.unitScope,
      x.scope? ((Renumbering.shift n m).scope s) = y.scope? ((Renumbering.shift n m).scope s))
    (hsymbolLeft : ∀ id, id.index < m → x.symbol? id = y.symbol? id)
    (hsymbolRight : ∀ id, x.symbol? ((Renumbering.shift n m).symbol id) =
      y.symbol? ((Renumbering.shift n m).symbol id)) : x = y := by
  refine ext_views (fun s => ?_) fun id => ?_
  · by_cases hs : s = Program.unitScope
    · rw [hs, hunit]
    · by_cases hle : s.index ≤ n
      · exact hleft s hs hle
      · -- A scope behind those of the first table is a shifted one.
        have hne : (⟨s.index - n⟩ : ScopeId) ≠ Program.unitScope := by
          intro h
          have hindex : s.index - n = 0 := congrArg ScopeId.index h
          omega
        have hshift : (Renumbering.shift n m).scope ⟨s.index - n⟩ = s := by
          rw [Renumbering.scope_shift hne, ← ScopeId.index_inj]
          show s.index - n + n = s.index
          omega
        rw [← hshift]
        exact hright _ hne
  · by_cases hlt : id.index < m
    · exact hsymbolLeft id hlt
    · -- And so is a symbol behind those of the first table.
      have hshift : (Renumbering.shift n m).symbol ⟨id.index - m⟩ = id := by
        rw [← SymbolId.index_inj]
        show id.index - m + m = id.index
        omega
      rw [← hshift]
      exact hsymbolRight _

/-- There are the symbols of both. -/
@[simp] theorem symbolCount_beside (t u : SymbolTable) (n : Nat) :
    (t.beside n u).symbolCount = t.symbolCount + u.symbolCount := by
  simp [beside, join, renumber, symbolCount]

/-- There are the scopes of both, with the unit scope counted once. -/
theorem scopeCount_beside (ht : t.scopeCount = n + 1) (hu : 0 < u.scopeCount) :
    (t.beside n u).scopeCount = n + u.scopeCount := by
  obtain ⟨a, as, hta, hlength⟩ := exists_cons (t := t) (by omega)
  obtain ⟨b, bs, hub, hlength'⟩ := exists_cons hu
  simp [beside, join, renumber, scopeCount, hta, hub, joinScopes] at *
  omega

/-- A scope that is opened in a table with scopes is not the unit scope, which is the
first. -/
theorem nextScope_ne_unitScope (hu : 0 < u.scopeCount) : u.nextScope ≠ Program.unitScope := by
  intro h
  have hindex : u.scopeCount = 0 := congrArg ScopeId.index h
  omega

/-- The next scope of the second table comes next after both. So a scope that is opened
in both together is the shifted one. -/
theorem nextScope_beside (ht : t.scopeCount = n + 1) (hu : 0 < u.scopeCount) :
    (t.beside n u).nextScope = (Renumbering.shift n t.symbolCount).scope u.nextScope := by
  rw [Renumbering.scope_shift (nextScope_ne_unitScope hu)]
  simp only [nextScope, scopeCount_beside ht hu, ScopeId.mk.injEq]
  omega

/-- The next symbol of the second table comes next after both. It is the counterpart of
`nextScope_beside`. -/
theorem nextSymbol_beside (t u : SymbolTable) (n : Nat) :
    (t.beside n u).nextSymbol = (Renumbering.shift n t.symbolCount).symbol u.nextSymbol := by
  simp only [nextSymbol, Renumbering.shift, symbolCount_beside, SymbolId.mk.injEq]
  omega

/-- The unit scope binds the names of both, and those of the first table come first. If
no name is in both, it binds each as its own table does. -/
theorem lookup_beside_unitScope (ht : t.scopeCount = n + 1) (hu : 0 < u.scopeCount)
    (name : String) :
    (t.beside n u).lookup Program.unitScope name =
      (t.lookup Program.unitScope name).or ((u.lookup Program.unitScope name).map
        (Renumbering.shift n t.symbolCount).symbol) := by
  have hunit : ∀ {t : SymbolTable}, 0 < t.scopeCount →
      ∃ sc, t.scope? Program.unitScope = some sc := fun h => ⟨_, Array.getElem?_eq_getElem h⟩
  obtain ⟨a, ha⟩ := hunit (t := t) (by omega)
  obtain ⟨b, hb⟩ := hunit hu
  unfold lookup
  rw [scope?_beside_unitScope ht hu, ha, hb]
  show (a.join (b.renumber _)).lookup name = _
  rw [Scope.lookup_join, Scope.lookup_renumber]
  rfl

/-- The other scopes of the first table bind what they did. -/
theorem lookup_beside_left (ht : t.scopeCount = n + 1) (hu : 0 < u.scopeCount) {s : ScopeId}
    (hs : s ≠ Program.unitScope) (hle : s.index ≤ n) (name : String) :
    (t.beside n u).lookup s name = t.lookup s name := by
  unfold lookup
  rw [scope?_beside_left ht hu hs hle]

/-- The other scopes of the second table bind what they did, under the new numbers. -/
theorem lookup_beside_right (ht : t.scopeCount = n + 1) (hu : 0 < u.scopeCount) {s : ScopeId}
    (hs : s ≠ Program.unitScope) (name : String) :
    (t.beside n u).lookup ((Renumbering.shift n t.symbolCount).scope s) name =
      (u.lookup s name).map (Renumbering.shift n t.symbolCount).symbol := by
  unfold lookup
  rw [scope?_beside_right ht hu hs]
  cases u.scope? s with
  | none => rfl
  | some sc => exact sc.lookup_renumber _ name

/-- A name of the first table leads where it did. In the shared scope it has to be
bound, as otherwise it might be a name of the second table. The first table must be well
bound, so that the handle is one of its own and is not shifted. `Carries .id` says that
nothing is renumbered here. -/
theorem carries_beside_left (ht : t.scopeCount = n + 1) (hu : 0 < u.scopeCount)
    (hbound : t.WellBound) {s : ScopeId} {name : String} (hle : s.index ≤ n)
    (hname : s = Program.unitScope → (t.lookup s name).isSome) :
    Carries .id t (t.beside n u) s name where
  lookup := by
    show (t.beside n u).lookup s name = _
    -- Elsewhere than in the shared scope no name of the second table is bound.
    by_cases hs : s = Program.unitScope
    · obtain ⟨id, hid⟩ := Option.isSome_iff_exists.mp (hname hs)
      rw [hs] at hid ⊢
      rw [lookup_beside_unitScope ht hu, hid]
      rfl
    · rw [lookup_beside_left ht hu hs hle]
      cases t.lookup s name <;> rfl
  symbol hl := by
    obtain ⟨symbol, hsymbol, -⟩ := hbound s name _ hl
    rw [Renumbering.symbol_id, symbol?_beside_left (lt_of_symbol? hsymbol), hsymbol]
    simp

/-- A name of the second table leads where it did, under new numbers. In the shared
scope the first table must not bind it, because it would be found there first. -/
theorem carries_beside_right (ht : t.scopeCount = n + 1) (hu : 0 < u.scopeCount) {s : ScopeId}
    {name : String} (hfree : s = Program.unitScope → t.lookup Program.unitScope name = none) :
    Carries (.shift n t.symbolCount) u (t.beside n u) s name where
  lookup := by
    by_cases hs : s = Program.unitScope
    · rw [hs, Renumbering.scope_shift_unitScope, lookup_beside_unitScope ht hu, hfree hs,
        Option.none_or]
    · exact lookup_beside_right ht hu hs name
  symbol _ := symbol?_beside_right t u n _

end Views

/-! ### Declaring in the second table -/

section Declaring

variable {t u u' : SymbolTable} {n : Nat}

/-- A scope can be opened in the second table or in both together. The two results are
compared on the handles that `ext_beside` names: the unit scope, the other scopes of
either table, and the symbols of either. The new scope is the last one in both, as the
scopes of the second table come last. -/
theorem openScope_beside (ht : t.scopeCount = n + 1) (hu : 0 < u.scopeCount) (kind : ScopeKind) :
    (t.beside n u).openScope kind = t.beside n (u.openScope kind) := by
  have hu' : 0 < (u.openScope kind).scopeCount := by simp
  have hnew := nextScope_ne_unitScope hu
  apply ext_beside (n := n) (m := t.symbolCount)
  case hunit =>
    have hnew' := Renumbering.scope_shift_ne_unitScope (n := n) (m := t.symbolCount) hnew
    rw [scope?_openScope, scope?_beside_unitScope ht hu, scope?_beside_unitScope ht hu',
      scope?_openScope, nextScope_beside ht hu, if_neg hnew'.symm, if_neg hnew.symm]
  -- The new scope is none of the first table, so these are as they were.
  case hleft =>
    intro s hs hle
    rw [scope?_openScope, nextScope_beside ht hu, scope?_beside_left ht hu hs hle,
      scope?_beside_left ht hu' hs hle, if_neg (Renumbering.ne_scope_shift_of_le hs hle)]
  case hright =>
    intro s hs
    rw [scope?_openScope, nextScope_beside ht hu, scope?_beside_right ht hu hs,
      scope?_beside_right ht hu' hs, scope?_openScope]
    simp only [Renumbering.scope_shift_inj]
    split <;> rfl
  case hsymbolLeft =>
    intro id hid
    rw [symbol?_openScope, symbol?_beside_left hid, symbol?_beside_left hid]
  case hsymbolRight =>
    intro id
    rw [symbol?_openScope, symbol?_beside_right, symbol?_beside_right, symbol?_openScope]

variable {s : ScopeId} {symbol : Symbol} {id id' : SymbolId} {x : SymbolTable}

/-- If a symbol can be declared in the second table and in both together, the outcome is
the same. Whether it can be is settled in `declare?_beside`. Here only the two tables
that come out are compared, on the handles that `ext_beside` names. -/
theorem eq_beside_of_declare? (ht : t.scopeCount = n + 1) (hu : 0 < u.scopeCount)
    (h : u.declare? s symbol = some (id, u'))
    (h' : (t.beside n u).declare? ((Renumbering.shift n t.symbolCount).scope s)
      (symbol.renumber (.shift n t.symbolCount)) = some (id', x)) :
    id' = (Renumbering.shift n t.symbolCount).symbol id ∧ x = t.beside n u' := by
  have hid : id' = (Renumbering.shift n t.symbolCount).symbol id := by
    rw [id_of_declare? h, id_of_declare? h', nextSymbol_beside]
  have hu' : 0 < u'.scopeCount := by rwa [scopeCount_of_declare? h]
  refine ⟨hid, ?_⟩
  apply ext_beside (n := n) (m := t.symbolCount)
  case hunit =>
    rw [scope?_of_declare? h', scope?_beside_unitScope ht hu', scope?_of_declare? h]
    by_cases hs : s = Program.unitScope
    · -- The name is added to the shared scope, after all names of both tables.
      rw [hs, Renumbering.scope_shift_unitScope, if_pos rfl, if_pos rfl,
        scope?_beside_unitScope ht hu, hid]
      cases t.scope? Program.unitScope with
      | none => rfl
      | some a =>
          cases u.scope? Program.unitScope with
          | none => rfl
          | some b => simp [Scope.renumber_bind, Scope.join_bind]
    · -- The name goes into another scope, and the shared one stays as it is.
      rw [if_neg (Renumbering.scope_shift_ne_unitScope hs).symm, if_neg (Ne.symm hs),
        scope?_beside_unitScope ht hu]
  case hleft =>
    intro k hk hle
    rw [scope?_of_declare? h', scope?_beside_left ht hu' hk hle, scope?_beside_left ht hu hk hle,
      if_neg (Renumbering.ne_scope_shift_of_le hk hle)]
  case hright =>
    intro k hk
    rw [scope?_of_declare? h', scope?_beside_right ht hu' hk, scope?_of_declare? h,
      scope?_beside_right ht hu hk]
    simp only [Renumbering.scope_shift_inj]
    by_cases hks : k = s
    · -- The scope that gets the name.
      rw [if_pos hks, if_pos hks, ← hks, scope?_beside_right ht hu hk, hid]
      cases u.scope? k with
      | none => rfl
      | some b => simp [Scope.renumber_bind]
    · rw [if_neg hks, if_neg hks]
  case hsymbolLeft =>
    intro i hi
    have hne : i ≠ id' := by
      rintro rfl
      rw [hid] at hi
      exact Nat.not_lt.mpr (Nat.le_add_left _ _) hi
    rw [symbol?_of_declare? h', if_neg hne, symbol?_beside_left hi, symbol?_beside_left hi]
  case hsymbolRight =>
    intro i
    rw [symbol?_of_declare? h', hid, symbol?_beside_right, symbol?_beside_right,
      symbol?_of_declare? h]
    simp only [Renumbering.symbol_shift_inj]
    by_cases hi : i = id
    · rw [if_pos hi, if_pos hi, Option.map_some]
    · rw [if_neg hi, if_neg hi]

/-- A symbol is declared in the second table as it is in both together, unless the first
table has its name in a shared scope. The hypothesis says just that, and in all other
scopes it asks for nothing. A name that is taken in the second table is refused on both
sides. -/
theorem declare?_beside (ht : t.scopeCount = n + 1) (hu : s.index < u.scopeCount)
    (hfree : s = Program.unitScope → t.lookup Program.unitScope symbol.name = none) :
    (t.beside n u).declare? ((Renumbering.shift n t.symbolCount).scope s)
        (symbol.renumber (.shift n t.symbolCount)) =
      (u.declare? s symbol).map fun (id, u') =>
        ((Renumbering.shift n t.symbolCount).symbol id, t.beside n u') := by
  have hpos : 0 < u.scopeCount := by omega
  have hlt : ((Renumbering.shift n t.symbolCount).scope s).index <
      (t.beside n u).scopeCount := by
    rw [scopeCount_beside ht hpos]
    show (if s = Program.unitScope then s else ⟨s.index + n⟩ : ScopeId).index < _
    split
    · omega
    · show s.index + n < _
      omega
  -- The symbol can be declared in both or in neither, as the name is free in both or in
  -- neither.
  have hsame : ((t.beside n u).declare? ((Renumbering.shift n t.symbolCount).scope s)
      (symbol.renumber (.shift n t.symbolCount))).isSome ↔ (u.declare? s symbol).isSome := by
    rw [isSome_declare?_iff hlt, isSome_declare?_iff hu, Symbol.name_renumber,
      (carries_beside_right ht hpos hfree).lookup, Option.map_eq_none_iff]
  cases h : u.declare? s symbol with
  | none =>
      rw [h] at hsame
      simpa using hsame
  | some result =>
      rw [h] at hsame
      obtain ⟨⟨id', x⟩, h'⟩ := Option.isSome_iff_exists.mp (hsame.mpr rfl)
      obtain ⟨rfl, rfl⟩ := eq_beside_of_declare? ht hpos h h'
      exact h'

/-- In the shared scope a symbol is declared as in the second table if the first one
does not have its name. This is `declare?_beside` for routines. -/
theorem declare?_beside_unitScope (ht : t.scopeCount = n + 1) (hu : 0 < u.scopeCount)
    (hfree : t.lookup Program.unitScope symbol.name = none) :
    (t.beside n u).declare? Program.unitScope (symbol.renumber (.shift n t.symbolCount)) =
      (u.declare? Program.unitScope symbol).map fun (id, u') =>
        ((Renumbering.shift n t.symbolCount).symbol id, t.beside n u') := by
  have hshared := declare?_beside (s := Program.unitScope) ht hu fun _ => hfree
  rwa [Renumbering.scope_shift_unitScope] at hshared

/-- In the shared scope no symbol is declared whose name the first table has. The second
table by itself might have declared it. -/
theorem declare?_beside_of_bound (ht : t.scopeCount = n + 1) (hu : 0 < u.scopeCount)
    (hbound : t.lookup Program.unitScope symbol.name = some id) (ρ : Renumbering) :
    (t.beside n u).declare? Program.unitScope (symbol.renumber ρ) = none := by
  have hlt : Program.unitScope.index < (t.beside n u).scopeCount := by
    rw [scopeCount_beside ht hu]
    show 0 < _
    omega
  have hsome : ((t.beside n u).declare? Program.unitScope (symbol.renumber ρ)).isSome ↔ _ :=
    isSome_declare?_iff hlt
  rw [Symbol.name_renumber, lookup_beside_unitScope ht hu, hbound] at hsome
  simpa using hsome

/-- Variables can be declared in the second table or in both together. Their scope is
not shared, so no name of the first table is in the way. A variable has no numbers, so
it is declared as it is. The induction is on the variables with the second table left
free. -/
theorem declareAll_beside (ht : t.scopeCount = n + 1) (hs : s ≠ Program.unitScope)
    (hu : s.index < u.scopeCount) (vs : List Typed.Variable) :
    (t.beside n u).declareAll ((Renumbering.shift n t.symbolCount).scope s) (vs.map .var) =
      t.beside n (u.declareAll s (vs.map .var)) := by
  induction vs generalizing u with
  | nil => rfl
  | cons v vs ih =>
      -- One declaration is an instance of `declare?_beside`, as a variable is its own
      -- renumbering.
      have hfirst : (t.beside n u).declare ((Renumbering.shift n t.symbolCount).scope s)
          (.var v) = t.beside n (u.declare s (.var v)) := by
        have hvar : Symbol.var v = (Symbol.var v).renumber (.shift n t.symbolCount) := rfl
        unfold declare
        rw [hvar, declare?_beside ht hu fun h => absurd h hs, ← hvar]
        cases u.declare? s (.var v) <;> rfl
      show ((t.beside n u).declare _ (.var v)).declareAll _ _ = _
      rw [hfirst]
      exact ih (by simpa using hu)

end Declaring

/-! ### Changing a symbol in either table -/

section Modifying

variable {t u : SymbolTable} {n : Nat} {id : SymbolId} {f f' : Symbol → Symbol}

/-- A change to a symbol adds none. -/
@[simp] theorem symbolCount_modify (t : SymbolTable) (id : SymbolId) (f : Symbol → Symbol) :
    (t.modify id f).symbolCount = t.symbolCount :=
  Array.size_modify

/-- A symbol of the first table is changed there or in both together. The number of
symbols stays, so the shift of the second table is the same. -/
theorem modify_beside_left (hid : id.index < t.symbolCount) :
    (t.beside n u).modify id f = (t.modify id f).beside n u := by
  have hsymbols : ∀ symbols : Array Symbol,
      (t.symbols ++ symbols).modify id.index f = t.symbols.modify id.index f ++ symbols := by
    have hlt : id.index < t.symbols.size := hid
    grind
  unfold beside
  rw [symbolCount_modify]
  exact congrArg (mk _) (hsymbols _)

/-- A symbol of the second table is changed there or in both together, if the change can
be made before or after the new numbers are put in. The two changes differ in the
numbers of what they write, which `hf` allows for. -/
theorem modify_beside_right
    (hf : ∀ s : Symbol, f' (s.renumber (.shift n t.symbolCount)) =
      (f s).renumber (.shift n t.symbolCount)) :
    (t.beside n u).modify ((Renumbering.shift n t.symbolCount).symbol id) f' =
      t.beside n (u.modify id f) := by
  have hmap : (u.symbols.map (·.renumber (.shift n t.symbolCount))).modify id.index f' =
      (u.symbols.modify id.index f).map (·.renumber (.shift n t.symbolCount)) := by
    grind
  have hsymbols : ∀ symbols : Array Symbol,
      (t.symbols ++ symbols).modify (id.index + t.symbols.size) f' =
        t.symbols ++ symbols.modify id.index f' := by
    grind
  exact congrArg (mk _) ((hsymbols _).trans (congrArg (t.symbols ++ ·) hmap))

end Modifying

end SymbolTable

end FortranFront
