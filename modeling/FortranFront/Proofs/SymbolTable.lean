import FortranFront.Typed.Program

/-!
# `FortranFront.Proofs.SymbolTable`: what the operations of a symbol table change

A table is seen through its views: the symbol a name is bound to in a scope
(`lookup`), the scope and the symbol behind a handle (`scope?`, `symbol?`) and the
number of scopes. Each operation is described by what it does to these, and later
proofs use the views alone.

* `lookup_of_declare?` and `symbol?_of_declare?`: declaring a symbol changes one
  lookup and one handle, and both had nothing before.
* `GrowsTo`: one table keeps every binding and every symbol of another. Opening a
  scope and declaring symbols make a table grow, so whatever was found before is
  found after.
* `WellBound`: a bound name leads to a symbol of that name, which is a routine in
  the unit scope and a variable everywhere else. Every table that is built by
  declaring routines in the unit scope and variables elsewhere has this property.
* `Built`: a table that comes about by opening scopes and declaring symbols. All its
  bindings lead to symbols, and all its symbols are bound under their names. Each
  symbol is bound only once (`Built.lookup_inj`), so there are as many bindings as
  symbols (`Built.bindingCount_eq`).
-/

set_option autoImplicit false

namespace FortranFront

/-- Scopes with the same number are the same. The number is all there is in a handle. -/
theorem ScopeId.index_inj {a b : ScopeId} : a.index = b.index ↔ a = b := by
  cases a; cases b; simp

/-- Symbols with the same number are the same. -/
theorem SymbolId.index_inj {a b : SymbolId} : a.index = b.index ↔ a = b := by
  cases a; cases b; simp

/-- A scope without the name binds it last, where a lookup of that name finds it. Were
the name bound before, the earlier binding would be found, so the name has to be
free. -/
theorem Scope.lookup_bind {s : Scope} {name : String} (id : SymbolId)
    (hfree : s.contains name = false) (n : String) :
    (s.bind name id).lookup n = if n = name then some id else s.lookup n := by
  have hnone : s.bindings.lookup name = none := by
    simpa [Scope.contains, Scope.lookup] using hfree
  unfold Scope.lookup Scope.bind
  -- The new binding comes last. It answers for its name because no older one does.
  rw [List.lookup_append, List.lookup_cons, List.lookup_nil]
  by_cases hn : n = name
  · subst hn
    simp [hnone]
  · have hne : (n == name) = false := by simpa using hn
    simp [hn, hne]

namespace SymbolTable

open Typed (Symbol)

variable {t t' : SymbolTable} {scope s : ScopeId} {symbol : Symbol} {id : SymbolId}
  {name : String}

/-- A handle that leads to a symbol is in range. So it is different from
`nextSymbol`. -/
theorem lt_of_symbol? (hs : t.symbol? id = some symbol) : id.index < t.symbolCount :=
  (Array.getElem?_eq_some_iff.mp hs).choose

/-! ### Opening a scope -/

/-- A scope is opened among the scopes, so no symbol changes. -/
@[simp] theorem symbol?_openScope (t : SymbolTable) (kind : ScopeKind) (i : SymbolId) :
    (t.openScope kind).symbol? i = t.symbol? i := rfl

/-- Opening a scope adds one scope. -/
@[simp] theorem scopeCount_openScope (t : SymbolTable) (kind : ScopeKind) :
    (t.openScope kind).scopeCount = t.scopeCount + 1 := by
  simp [openScope, scopeCount]

/-- The new scope is empty, and the others stay what they are. The new one has the
handle that was the next one before, so a handle that is in use keeps its scope. -/
theorem scope?_openScope (t : SymbolTable) (kind : ScopeKind) (s : ScopeId) :
    (t.openScope kind).scope? s =
      if s = t.nextScope then some (Scope.empty kind) else t.scope? s := by
  have hnext : s = t.nextScope ↔ s.index = t.scopes.size := by
    rw [← ScopeId.index_inj]
    rfl
  simp [openScope, scope?, Array.getElem?_push, hnext]

/-- A scope beyond the last one binds nothing. Lookups are total, so they may be made in
scopes that do not exist. -/
theorem lookup_eq_none_of_le (h : t.scopeCount ≤ s.index) : t.lookup s name = none := by
  have hnone : t.scope? s = none := Array.getElem?_eq_none h
  simp [lookup, hnone]

/-- A new scope binds nothing, so every lookup stays as it was. Its own handle bound
nothing before either, by `lookup_eq_none_of_le`. This is why a lookup may be made
without asking whether the scope exists. -/
@[simp] theorem lookup_openScope (t : SymbolTable) (kind : ScopeKind) (s : ScopeId)
    (name : String) : (t.openScope kind).lookup s name = t.lookup s name := by
  by_cases hs : s.index = t.scopes.size
  · -- The new scope itself, which was beyond the last one before.
    rw [lookup_eq_none_of_le (t := t) (s := s) (Nat.le_of_eq hs.symm)]
    simp [lookup, scope?, openScope, hs, Scope.lookup, Scope.empty]
  · simp [lookup, scope?, openScope, Array.getElem?_push, hs]

/-! ### Declaring a symbol -/

/-- A symbol is declared where there is a scope that does not bind its name. This is the
whole of `declare?` as one equation. The lemmas below read one view each off it, and
later modules use those views only. -/
theorem declare?_eq_some_iff {result : SymbolId × SymbolTable} :
    t.declare? scope symbol = some result ↔
      ∃ s, t.scope? scope = some s ∧ s.contains symbol.name = false ∧
        result = (t.nextSymbol,
          { scopes := t.scopes.setIfInBounds scope.index (s.bind symbol.name t.nextSymbol)
            symbols := t.symbols.push symbol }) := by
  unfold declare?
  cases t.scope? scope with
  | none => simp
  | some s =>
      cases hs : s.contains symbol.name with
      | true => simp [hs]
      | false => simp [hs, eq_comm (a := result)]

/-- In a scope that exists a symbol is declared exactly if its name is free there.
Without the scope nothing could be declared, although every name is free. -/
theorem isSome_declare?_iff (hscope : scope.index < t.scopeCount) :
    (t.declare? scope symbol).isSome ↔ t.lookup scope symbol.name = none := by
  have hs : t.scope? scope = some t.scopes[scope.index] := Array.getElem?_eq_getElem hscope
  have hlookup : t.lookup scope symbol.name = t.scopes[scope.index].lookup symbol.name := by
    simp [lookup, hs]
  rw [hlookup]
  cases hfree : t.scopes[scope.index].lookup symbol.name <;>
    simp [declare?, hs, Scope.contains, hfree]

/-- The handle of a declared symbol is the next one. Neither the scope nor the symbol
plays a part in it. -/
theorem id_of_declare? (h : t.declare? scope symbol = some (id, t')) : id = t.nextSymbol := by
  obtain ⟨s, -, -, hresult⟩ := declare?_eq_some_iff.mp h
  exact (Prod.mk.inj hresult).1

/-- One scope gets a binding more, after those it had, and the others stay what they
are. It is stated for every scope at once, so a proof splits on whether it is the
one. -/
theorem scope?_of_declare? (h : t.declare? scope symbol = some (id, t')) (s : ScopeId) :
    t'.scope? s =
      if s = scope then (t.scope? scope).map (·.bind symbol.name id) else t.scope? s := by
  obtain ⟨sc, hsc, -, hresult⟩ := declare?_eq_some_iff.mp h
  obtain ⟨rfl, rfl⟩ := Prod.mk.inj hresult
  have hlt : scope.index < t.scopes.size := (Array.getElem?_eq_some_iff.mp hsc).choose
  by_cases hs : s = scope
  · subst hs
    rw [if_pos rfl, hsc]
    simp [scope?, hlt]
  · have hne : ¬ scope.index = s.index := fun he => hs (ScopeId.index_inj.mp he).symm
    simp [scope?, hne, hs]

/-- The name was free, now it is bound to the new handle, and no other lookup changes.
Almost all that is said of bindings later rests on this equation, together with
`symbol?_of_declare?` for the symbols behind them. -/
theorem lookup_of_declare? (h : t.declare? scope symbol = some (id, t')) (s : ScopeId)
    (name : String) :
    t'.lookup s name = if s = scope ∧ name = symbol.name then some id else t.lookup s name := by
  obtain ⟨sc, hsc, hfree, hresult⟩ := declare?_eq_some_iff.mp h
  obtain ⟨rfl, rfl⟩ := Prod.mk.inj hresult
  have hlt : scope.index < t.scopes.size := (Array.getElem?_eq_some_iff.mp hsc).choose
  by_cases hs : s = scope
  · -- The scope that was written back, with one binding more.
    subst hs
    have hold : t.lookup s name = sc.lookup name := by simp [lookup, hsc]
    rw [hold]
    simpa [lookup, scope?, hlt] using Scope.lookup_bind t.nextSymbol hfree name
  · have hne : ¬ scope.index = s.index := fun he => hs (ScopeId.index_inj.mp he).symm
    simp [lookup, scope?, hne, hs]

/-- The name of a declared symbol was free before. -/
theorem lookup_eq_none_of_declare? (h : t.declare? scope symbol = some (id, t')) :
    t.lookup scope symbol.name = none := by
  obtain ⟨sc, hsc, hfree, -⟩ := declare?_eq_some_iff.mp h
  simpa [lookup, hsc, Scope.contains] using hfree

/-- The new handle leads to the declared symbol, and all others lead where they did. It
is the counterpart of `lookup_of_declare?` for symbols. Nothing is asked of the handle
`i`, which may lie beyond the table. -/
theorem symbol?_of_declare? (h : t.declare? scope symbol = some (id, t')) (i : SymbolId) :
    t'.symbol? i = if i = id then some symbol else t.symbol? i := by
  obtain ⟨sc, -, -, hresult⟩ := declare?_eq_some_iff.mp h
  obtain ⟨rfl, rfl⟩ := Prod.mk.inj hresult
  show (t.symbols.push symbol)[i.index]? = _
  rw [Array.getElem?_push]
  -- Handles count the symbols, so the new one is the number of those before it.
  have hi : (i = t.nextSymbol) ↔ i.index = t.symbols.size := by
    rw [← SymbolId.index_inj]
    rfl
  simp [hi, symbol?]

/-- The new handle led nowhere before. So nothing that was known of an older handle can
be about it. -/
theorem symbol?_eq_none_of_declare? (h : t.declare? scope symbol = some (id, t')) :
    t.symbol? id = none := by
  rw [id_of_declare? h]
  exact Array.getElem?_eq_none (Nat.le_refl _)

/-- Declaring opens no scope. -/
theorem scopeCount_of_declare? (h : t.declare? scope symbol = some (id, t')) :
    t'.scopeCount = t.scopeCount := by
  obtain ⟨sc, -, -, hresult⟩ := declare?_eq_some_iff.mp h
  obtain ⟨rfl, rfl⟩ := Prod.mk.inj hresult
  exact Array.size_setIfInBounds

/-- Declaring a symbol adds one symbol. -/
theorem symbolCount_of_declare? (h : t.declare? scope symbol = some (id, t')) :
    t'.symbolCount = t.symbolCount + 1 := by
  obtain ⟨sc, -, -, hresult⟩ := declare?_eq_some_iff.mp h
  obtain ⟨rfl, rfl⟩ := Prod.mk.inj hresult
  exact Array.size_push _

/-- Declaring a symbol, or passing it over, opens no scope. -/
@[simp] theorem scopeCount_declare (t : SymbolTable) (scope : ScopeId) (symbol : Symbol) :
    (t.declare scope symbol).scopeCount = t.scopeCount := by
  unfold declare
  cases h : t.declare? scope symbol with
  | none => rfl
  | some result => exact scopeCount_of_declare? h

/-- A scope that exists binds a symbol's name after the symbol is declared, for either
the name was bound before or it is bound now. No other name gets bound. For this it does
not matter whether `declare` has added anything. -/
theorem isSome_lookup_declare (hscope : scope.index < t.scopeCount) (s : ScopeId)
    (name : String) :
    ((t.declare scope symbol).lookup s name).isSome ↔
      (t.lookup s name).isSome ∨ (s = scope ∧ name = symbol.name) := by
  unfold declare
  cases h : t.declare? scope symbol with
  | none =>
      -- Nothing was declared, which can only be because the name was bound.
      have hbound : (t.lookup scope symbol.name).isSome := by
        cases hl : t.lookup scope symbol.name with
        | none =>
            have hdeclared := (isSome_declare?_iff hscope).mpr hl
            rw [h] at hdeclared
            cases hdeclared
        | some id => rfl
      constructor
      · exact Or.inl
      · rintro (hold | ⟨rfl, rfl⟩)
        · exact hold
        · exact hbound
  | some result =>
      show (result.2.lookup s name).isSome ↔ _
      rw [lookup_of_declare? h]
      by_cases hnew : s = scope ∧ name = symbol.name <;> simp [hnew]

/-- The scopes a name of a list of symbols is bound in after they are declared. Symbols
that were passed over do no harm, since their names are bound already. To which handle a
name is bound is not said, as this depends on the symbols that were passed over. -/
theorem isSome_lookup_declareAll {symbols : List Symbol} (hscope : scope.index < t.scopeCount)
    (s : ScopeId) (name : String) :
    ((t.declareAll scope symbols).lookup s name).isSome ↔
      (t.lookup s name).isSome ∨ (s = scope ∧ name ∈ symbols.map Symbol.name) := by
  induction symbols generalizing t with
  | nil => simp [declareAll]
  | cons symbol rest ih =>
      show ((t.declare scope symbol).declareAll scope rest |>.lookup s name).isSome ↔ _
      rw [ih (by simpa using hscope), isSome_lookup_declare hscope, List.map_cons,
        List.mem_cons, or_assoc, and_or_left]

/-- Declaring any number of symbols opens no scope. -/
@[simp] theorem scopeCount_declareAll (t : SymbolTable) (scope : ScopeId)
    (symbols : List Symbol) : (t.declareAll scope symbols).scopeCount = t.scopeCount := by
  induction symbols generalizing t with
  | nil => rfl
  | cons symbol rest ih =>
      show ((t.declare scope symbol).declareAll scope rest).scopeCount = _
      rw [ih, scopeCount_declare]

/-! ### Finding a variable -/

/-- A variable is found under a name if the scope binds the name to its handle. Both
parts are views of the table, so what is known of these carries over to finding
variables. -/
theorem findVariable?_eq_some_iff {found : SymbolId × Typed.Variable} :
    t.findVariable? s name = some found ↔
      t.lookup s name = some found.1 ∧ t.symbol? found.1 = some (.var found.2) := by
  constructor
  · intro h
    obtain ⟨i, hl, symbol, hs, v, hv, rfl⟩ := by
      simpa [findVariable?, Option.bind_eq_some_iff] using h
    cases symbol with
    | routine r => cases hv
    | var w =>
        cases hv
        exact ⟨hl, hs⟩
  · rintro ⟨hl, hs⟩
    simp [findVariable?, hl, hs, Symbol.toVariable?]

/-! ### Growth -/

/-- A table grows to another that keeps every binding and every symbol of it. Nothing is
said of what the larger table has besides. Whatever is known of names and handles can be
carried along such a growth, as `DeclaredFrom.step` does. -/
structure GrowsTo (t t' : SymbolTable) : Prop where
  /-- A bound name stays bound to its handle. -/
  lookup : ∀ {s : ScopeId} {name : String} {id : SymbolId},
    t.lookup s name = some id → t'.lookup s name = some id
  /-- A handle keeps its symbol. -/
  symbol : ∀ {id : SymbolId} {symbol : Symbol},
    t.symbol? id = some symbol → t'.symbol? id = some symbol

namespace GrowsTo

/-- Every table keeps what it has. -/
protected theorem refl (t : SymbolTable) : t.GrowsTo t := ⟨id, id⟩

/-- Growing twice is growing. -/
protected theorem trans {t₁ t₂ t₃ : SymbolTable} (h : t₁.GrowsTo t₂) (h' : t₂.GrowsTo t₃) :
    t₁.GrowsTo t₃ :=
  ⟨fun hl => h'.lookup (h.lookup hl), fun hs => h'.symbol (h.symbol hs)⟩

/-- An open scope takes nothing away. -/
theorem openScope (t : SymbolTable) (kind : ScopeKind) : t.GrowsTo (t.openScope kind) where
  lookup hl := by rwa [lookup_openScope]
  symbol hs := by rwa [symbol?_openScope]

/-- Declaring a symbol takes nothing away. The one lookup and the one handle that change
had nothing before, so nothing that was there is lost. Trees that were typed in a table
therefore stay well typed while it grows. -/
theorem declare? (h : t.declare? scope symbol = some (id, t')) : t.GrowsTo t' where
  lookup {s name i} hl := by
    rw [lookup_of_declare? h]
    split
    · -- The name would have to be bound already where it was free.
      rename_i hnew
      rw [hnew.1, hnew.2, lookup_eq_none_of_declare? h] at hl
      cases hl
    · exact hl
  symbol {i old} hs := by
    rw [symbol?_of_declare? h]
    split
    · rename_i hi
      rw [hi, symbol?_eq_none_of_declare? h] at hs
      cases hs
    · exact hs

/-- Declaring a symbol, or passing it over, takes nothing away. -/
theorem declare (t : SymbolTable) (scope : ScopeId) (symbol : Symbol) :
    t.GrowsTo (t.declare scope symbol) := by
  unfold SymbolTable.declare
  cases h : t.declare? scope symbol with
  | none => exact .refl t
  | some result => exact GrowsTo.declare? h

/-- Declaring any number of symbols takes nothing away, by induction on them. -/
theorem declareAll (t : SymbolTable) (scope : ScopeId) (symbols : List Symbol) :
    t.GrowsTo (t.declareAll scope symbols) := by
  induction symbols generalizing t with
  | nil => exact .refl t
  | cons symbol rest ih => exact (GrowsTo.declare t scope symbol).trans (ih _)

end GrowsTo

/-! ### Well-bound tables -/

/-- A bound name leads to a symbol of that name. The symbol is a routine if the name is
bound in the unit scope, and a variable otherwise. Because of this a lookup tells the
kind and the name of what it finds. It is no consequence of `Built`, since a symbol of
any kind could be declared in any scope. -/
def WellBound (t : SymbolTable) : Prop :=
  ∀ (s : ScopeId) (name : String) (id : SymbolId), t.lookup s name = some id →
    ∃ symbol, t.symbol? id = some symbol ∧ symbol.name = name ∧
      (symbol.toRoutine?.isSome ↔ s = Typed.Program.unitScope)

namespace WellBound

/-- Without scopes no name is bound. -/
theorem empty : SymbolTable.empty.WellBound := by
  intro s name id hl
  cases hl

/-- A new scope has no bindings that could be wrong. -/
theorem openScope (h : t.WellBound) (kind : ScopeKind) : (t.openScope kind).WellBound := by
  intro s name id hl
  rw [lookup_openScope] at hl
  exact h s name id hl

/-- The new binding is as it must be if the kind of the symbol suits the scope. The
others led to older handles, and these keep their symbols. Without `hkind` a variable
could be declared in the unit scope, which nothing in `declare?` forbids. -/
theorem declare? (h : t.WellBound)
    (hkind : symbol.toRoutine?.isSome ↔ scope = Typed.Program.unitScope)
    (hd : t.declare? scope symbol = some (id, t')) : t'.WellBound := by
  intro s name i hl
  rw [lookup_of_declare? hd] at hl
  split at hl
  · -- The new binding leads to the symbol that was declared.
    rename_i hnew
    cases hl
    refine ⟨symbol, ?_, hnew.2.symm, ?_⟩
    · rw [symbol?_of_declare? hd, if_pos rfl]
    · rw [hkind, hnew.1]
  · -- An older binding, and the handle it leads to keeps its symbol.
    obtain ⟨old, hs, hname⟩ := h s name i hl
    exact ⟨old, (GrowsTo.declare? hd).symbol hs, hname⟩

/-- A symbol whose kind suits the scope may be declared or passed over. -/
theorem declare (h : t.WellBound)
    (hkind : symbol.toRoutine?.isSome ↔ scope = Typed.Program.unitScope) :
    (t.declare scope symbol).WellBound := by
  unfold SymbolTable.declare
  cases hd : t.declare? scope symbol with
  | none => exact h
  | some result => exact h.declare? hkind hd

/-- Symbols whose kinds suit the scope may be declared one after the other. -/
theorem declareAll {symbols : List Symbol} (h : t.WellBound)
    (hkind : ∀ symbol ∈ symbols,
      (symbol.toRoutine?.isSome ↔ scope = Typed.Program.unitScope)) :
    (t.declareAll scope symbols).WellBound := by
  induction symbols generalizing t with
  | nil => exact h
  | cons symbol rest ih =>
      exact ih (h.declare (hkind symbol List.mem_cons_self)) fun other hother =>
        hkind other (List.mem_cons_of_mem symbol hother)

/-- Outside of the unit scope every bound name is a variable. A name of a routine's
scope is therefore never refused for its kind, only if it is not bound at all. For dummy
arguments, which are known to be bound, this makes linking succeed. -/
theorem isSome_findVariable? (h : t.WellBound) (hs : s ≠ Typed.Program.unitScope)
    (hl : (t.lookup s name).isSome) : (t.findVariable? s name).isSome := by
  obtain ⟨id, hid⟩ := Option.isSome_iff_exists.mp hl
  obtain ⟨symbol, hsymbol, -, hkind⟩ := h s name id hid
  cases symbol with
  | var v => simp [findVariable?, hid, hsymbol, Symbol.toVariable?]
  | routine r => exact absurd (hkind.mp rfl) hs

/-- A variable that is found under a name bears that name. It is what brings the names
back in `Proofs/Erasure`. -/
theorem name_of_findVariable? (h : t.WellBound) {found : SymbolId × Typed.Variable}
    (hfound : t.findVariable? s name = some found) : found.2.name = name := by
  obtain ⟨hl, hs⟩ := findVariable?_eq_some_iff.mp hfound
  obtain ⟨symbol, hsymbol, hname, -⟩ := h s name found.1 hl
  rw [hs] at hsymbol
  cases hsymbol
  exact hname

end WellBound

/-! ### Counting bindings -/

/-- How many names are bound in all scopes together. A table that is built has as many
symbols, by `Built.bindingCount_eq`. -/
def bindingCount (t : SymbolTable) : Nat := t.scopes.toList.foldr (fun s n => s.size + n) 0

/-- One binding more in one scope is one more in all. The induction is on the scopes,
along with the index of the one that changes. Lists are used here, since the fold over
an array is one over its list. -/
theorem foldr_size_set {scopes : List Scope} {i : Nat} {sc : Scope} (hsc : scopes[i]? = some sc)
    (name : String) (id : SymbolId) :
    (scopes.set i (sc.bind name id)).foldr (fun s n => s.size + n) 0 =
      scopes.foldr (fun s n => s.size + n) 0 + 1 := by
  induction scopes generalizing i with
  | nil => simp at hsc
  | cons first rest ih =>
      -- The scope that changes is the first one or one of the rest.
      cases i with
      | zero =>
          obtain rfl : first = sc := by simpa using hsc
          simp only [List.set_cons_zero, List.foldr_cons, Scope.bind, Scope.size,
            List.length_append, List.length_singleton]
          omega
      | succ i =>
          have hrest := ih (i := i) (by simpa using hsc)
          simp only [List.set_cons_succ, List.foldr_cons, hrest]
          omega

/-- Opening a scope binds no name, so the empty scope adds nothing to the sum. -/
theorem bindingCount_openScope (t : SymbolTable) (kind : ScopeKind) :
    (t.openScope kind).bindingCount = t.bindingCount := by
  simp [bindingCount, openScope, Scope.empty, Scope.size]

/-- Declaring a symbol binds one name. Together with `symbolCount_of_declare?` it keeps
the two counts equal. -/
theorem bindingCount_of_declare? (h : t.declare? scope symbol = some (id, t')) :
    t'.bindingCount = t.bindingCount + 1 := by
  obtain ⟨sc, hsc, -, hresult⟩ := declare?_eq_some_iff.mp h
  obtain ⟨rfl, rfl⟩ := Prod.mk.inj hresult
  have hlist : t.scopes.toList[scope.index]? = some sc := by
    rw [Array.getElem?_toList]
    exact hsc
  show (t.scopes.setIfInBounds scope.index _).toList.foldr _ 0 = _
  rw [Array.toList_setIfInBounds]
  exact foldr_size_set hlist symbol.name t.nextSymbol

/-! ### Tables that are built from nothing -/

/-- A table that comes about by opening scopes and declaring symbols. All tables of the
analysis are built in this way up to the changes of `modify`, which touch neither
bindings nor names. -/
inductive Built : SymbolTable → Prop
  | empty : Built SymbolTable.empty
  | openScope {t : SymbolTable} (kind : ScopeKind) : Built t → Built (t.openScope kind)
  | declare? {t t' : SymbolTable} {scope : ScopeId} {symbol : Symbol} {id : SymbolId} :
      Built t → t.declare? scope symbol = some (id, t') → Built t'

namespace Built

/-- A built table stays one when a symbol is declared or passed over. -/
theorem declare (h : t.Built) (scope : ScopeId) (symbol : Symbol) :
    (t.declare scope symbol).Built := by
  unfold SymbolTable.declare
  cases hd : t.declare? scope symbol with
  | none => exact h
  | some result => exact h.declare? hd

/-- A built table stays one when any number of symbols is declared. -/
theorem declareAll (h : t.Built) (scope : ScopeId) (symbols : List Symbol) :
    (t.declareAll scope symbols).Built := by
  induction symbols generalizing t with
  | nil => exact h
  | cons symbol rest ih => exact ih (h.declare scope symbol)

/-- Every binding of a built table leads to a symbol of the name that is bound. This is
about all bindings of a scope, and not only about those that a lookup finds, so it goes
by induction on how the table was built. -/
theorem symbol?_of_mem_bindings (h : t.Built) {sc : Scope} (hsc : t.scope? s = some sc)
    {b : String × SymbolId} (hb : b ∈ sc.bindings) :
    ∃ symbol, t.symbol? b.2 = some symbol ∧ symbol.name = b.1 := by
  induction h generalizing s sc with
  | empty => cases hsc
  | @openScope t kind _ ih =>
      rw [scope?_openScope] at hsc
      split at hsc
      · -- The new scope has no bindings yet.
        cases hsc
        cases hb
      · exact ih hsc hb
  | @declare? t t' scope symbol id _ hd ih =>
      have hold : ∀ {s sc}, t.scope? s = some sc → b ∈ sc.bindings →
          ∃ symbol, t'.symbol? b.2 = some symbol ∧ symbol.name = b.1 := by
        intro s sc hsc hb
        obtain ⟨old, hs, hname⟩ := ih hsc hb
        exact ⟨old, (GrowsTo.declare? hd).symbol hs, hname⟩
      rw [scope?_of_declare? hd] at hsc
      split at hsc
      · obtain ⟨before, hbefore, rfl⟩ := Option.map_eq_some_iff.mp hsc
        rcases List.mem_append.mp hb with hb | hb
        · exact hold hbefore hb
        · -- The binding that was added leads to the symbol that was declared.
          rw [List.mem_singleton.mp hb]
          exact ⟨symbol, by rw [symbol?_of_declare? hd, if_pos rfl], rfl⟩
      · exact hold hsc hb

/-- Every symbol of a built table is bound under its own name in some scope. A symbol
comes into the table together with its binding, and neither is lost
(`GrowsTo.declare?`). The induction is on how the table was built. -/
theorem exists_lookup (h : t.Built) (hs : t.symbol? id = some symbol) :
    ∃ s, t.lookup s symbol.name = some id := by
  induction h generalizing id symbol with
  | empty => cases hs
  | openScope kind _ ih =>
      obtain ⟨s, hl⟩ := ih hs
      exact ⟨s, by rwa [lookup_openScope]⟩
  | @declare? t t' scope added new _ hd ih =>
      rw [symbol?_of_declare? hd] at hs
      -- The symbol is the one just declared, or an older one.
      split at hs
      · rename_i hid
        cases hs
        exact ⟨scope, by rw [lookup_of_declare? hd, if_pos ⟨rfl, rfl⟩, hid]⟩
      · obtain ⟨s, hl⟩ := ih hs
        exact ⟨s, (GrowsTo.declare? hd).lookup hl⟩

/-- What a name is bound to in a built table is a symbol of that name. A lookup finds
one of the bindings, so `symbol?_of_mem_bindings` applies. -/
theorem symbol?_of_lookup (h : t.Built) (hl : t.lookup s name = some id) :
    ∃ symbol, t.symbol? id = some symbol ∧ symbol.name = name := by
  obtain ⟨sc, hsc, hlookup⟩ := Option.bind_eq_some_iff.mp hl
  obtain ⟨before, after, hsplit, -⟩ := List.lookup_eq_some_iff.mp hlookup
  refine h.symbol?_of_mem_bindings hsc (b := (name, id)) ?_
  rw [hsplit]
  exact List.mem_append_right before List.mem_cons_self

/-- No symbol of a built table is bound twice, be it in another scope or under another
name. Of two bindings of the new handle both are the new binding. Older handles are left
to the induction. -/
theorem lookup_inj (h : t.Built) {s' : ScopeId} {name' : String}
    (hl : t.lookup s name = some id) (hl' : t.lookup s' name' = some id) :
    s' = s ∧ name' = name := by
  induction h generalizing s s' name name' id with
  | empty => cases hl
  | openScope kind _ ih =>
      rw [lookup_openScope] at hl hl'
      exact ih hl hl'
  | @declare? t t' scope added new hbuilt hd ih =>
      -- No name was bound to the new handle before, since it led nowhere.
      have hfresh : ∀ {s name}, t.lookup s name ≠ some new := by
        intro s name hold
        obtain ⟨symbol, hsymbol, -⟩ := hbuilt.symbol?_of_lookup hold
        rw [symbol?_eq_none_of_declare? hd] at hsymbol
        cases hsymbol
      rw [lookup_of_declare? hd] at hl hl'
      split at hl
      · rename_i hnew
        cases hl
        split at hl'
        · rename_i hnew'
          exact ⟨hnew'.1.trans hnew.1.symm, hnew'.2.trans hnew.2.symm⟩
        · exact absurd hl' hfresh
      · split at hl'
        · cases hl'
          exact absurd hl hfresh
        · exact ih hl hl'

/-- Every symbol of a built table is bound in one scope and no other, and there under
its own name and no other. It puts `exists_lookup` and `lookup_inj` together. So a
handle can be taken for the pair of a scope and a name. -/
theorem exists_lookup_iff (h : t.Built) (hs : t.symbol? id = some symbol) :
    ∃ s, ∀ s' name, t.lookup s' name = some id ↔ s' = s ∧ name = symbol.name := by
  obtain ⟨s, hl⟩ := h.exists_lookup hs
  refine ⟨s, fun s' name => ⟨fun hl' => h.lookup_inj hl hl', ?_⟩⟩
  rintro ⟨rfl, rfl⟩
  exact hl

/-- A built table has as many symbols as names are bound in its scopes. Both counts grow
with a declaration and with nothing else. The induction is on the way the table was
built. -/
theorem bindingCount_eq (h : t.Built) : t.bindingCount = t.symbolCount := by
  induction h with
  | empty => rfl
  | openScope kind _ ih => rw [bindingCount_openScope, ih]; rfl
  | declare? _ hd ih => rw [bindingCount_of_declare? hd, symbolCount_of_declare? hd, ih]

/-- A routine of a built table that is well bound has its name bound in the unit scope.
That it is bound somewhere comes from how the table was built, and where comes from
`WellBound`. -/
theorem lookup_routine (h : t.Built) (hbound : t.WellBound) {r : Typed.Routine}
    (hs : t.symbol? id = some (.routine r)) :
    t.lookup Typed.Program.unitScope r.name = some id := by
  obtain ⟨s, hl⟩ := h.exists_lookup hs
  obtain ⟨found, hfound, -, hkind⟩ := hbound s r.name id hl
  -- Only the unit scope binds routines, so that is the scope its name is bound in.
  rw [hs] at hfound
  cases hfound
  rw [← hkind.mp rfl]
  exact hl

end Built

end SymbolTable

end FortranFront
