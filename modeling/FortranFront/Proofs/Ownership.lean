import FortranFront.Proofs.LateFailure
import FortranFront.Proofs.Layout
import FortranFront.Proofs.WellFormed

/-!
# `FortranFront.Proofs.Ownership`: who owns which scopes and symbols

In a declared program the routine that comes after `n` others owns scope `n + 1`
and one block of symbols without gaps, its variables first and itself last. There
are no other scopes but the unit scope, and no other symbols. `OwnsBlock` says this
of one routine and `LaidOut` of a whole program.

* `laidOut_of_declare`: declaring routines lays them out like this.
* `LaidOut.congr`: a program of the same skeleton is laid out alike.
* `laidOut_afterSession`: so a program stays as it was laid out, whatever passes it
  goes through.
-/

set_option autoImplicit false

namespace FortranFront.Analysis

open Typed (Program Symbol Variable)

/-! ### What is owned -/

/-- The symbols a scope of some kind may bind: a unit scope routines, and the scope of a
routine variables. Its result variable is one of these. -/
def BelongsIn : ScopeKind → Symbol → Prop
  | .unit, symbol => ∃ r, symbol = .routine r
  | .routine, symbol => ∃ v, symbol = .var v

/-- There is a scope of some kind under a handle, and all that it binds belongs in it.
So no handle in it leads nowhere. -/
def HasScope (table : SymbolTable) (id : ScopeId) (kind : ScopeKind) : Prop :=
  ∃ sc, table.scope? id = some sc ∧ sc.kind = kind ∧
    ∀ b ∈ sc.bindings, ∃ symbol, table.symbol? b.2 = some symbol ∧ BelongsIn kind symbol

/-- A routine that comes after some others owns the scope and the symbols behind theirs.
The symbols are the result of a function, a variable for each declaration that decides,
in their order, and the routine itself. Of the routine only what no pass changes is
said. -/
structure OwnsBlock (table : SymbolTable) (before : List Parsed.Routine) (r : Parsed.Routine) :
    Prop where
  scope : HasScope table (scopeAfter before) .routine
  known : KnownAfter r r.declarations (variablesOf r)
  locals : ∀ {k : Nat} {v : Variable}, (variablesOf r)[k]? = some v →
    table.symbol? ⟨extent before + k⟩ = some (.var v) ∧
      table.lookup (scopeAfter before) v.name = some ⟨extent before + k⟩
  routine : ∃ routine, table.symbol? (routineHandle before r) = some (.routine routine) ∧
    routine.name = r.name ∧ routine.scope = scopeAfter before

/-- Routines are laid out in a program. They own all its scopes and symbols, except the
unit scope that binds them, and every symbol has one name in one scope. All fields can
be read off the skeleton, which is why `LaidOut.congr` holds. -/
structure LaidOut (rs : List Parsed.Routine) (p : Program) : Prop where
  scopeCount : p.table.scopeCount = rs.length + 1
  /-- The blocks have no gaps between them and none behind the last. -/
  symbolCount : p.table.symbolCount = extent rs
  unitScope : HasScope p.table Program.unitScope .unit
  blocks : ∀ before r after, rs = before ++ r :: after → OwnsBlock p.table before r
  items : p.items = (withEarlier rs).map fun (before, r) => routineHandle before r
  /-- The unit scope binds just these. -/
  mem_items : ∀ id, id ∈ p.items ↔ ∃ name, p.lookup name = some id
  /-- A symbol is bound in one scope, and there under its own name. -/
  bound : ∀ id : SymbolId, id.index < p.table.symbolCount →
    ∃ symbol s, p.table.symbol? id = some symbol ∧
      ∀ s' name, p.table.lookup s' name = some id ↔ s' = s ∧ name = symbol.name
  bindingCount : p.table.bindingCount = p.table.symbolCount

/-! ### Declared programs -/

section Declared

variable {before : List Parsed.Routine} {r : Parsed.Routine} {after : List Parsed.Routine}

/-- The scope of a routine binds its variables and nothing else. It is found by
`scope?_layout`. -/
theorem hasScope_layout :
    HasScope (layout (before ++ r :: after)).table (scopeAfter before) .routine := by
  refine ⟨_, scope?_layout before r after, rfl, fun b hb => ?_⟩
  obtain ⟨k, hk, rfl⟩ := List.mem_mapIdx.mp hb
  rw [List.length_map] at hk
  exact ⟨_, symbol?_layout_var (List.getElem?_eq_getElem hk), _, rfl⟩

/-- The unit scope binds the routines and nothing else. Each is the last symbol of its
block. -/
theorem hasScope_layout_unitScope (rs : List Parsed.Routine) :
    HasScope (layout rs).table Program.unitScope .unit := by
  refine ⟨_, scope?_layout_unitScope rs, rfl, fun b hb => ?_⟩
  obtain ⟨⟨before, r⟩, hmem, rfl⟩ := List.mem_map.mp hb
  obtain ⟨after, rfl⟩ := mem_withEarlier.mp hmem
  exact ⟨_, symbol?_layout_routine, _, rfl⟩

/-- Every routine of a layout whose variables can be collected owns its block. The parts
are the lemmas about one routine of a layout. -/
theorem ownsBlock_layout (hknown : KnownAfter r r.declarations (variablesOf r)) :
    OwnsBlock (layout (before ++ r :: after)).table before r where
  scope := hasScope_layout
  known := hknown
  locals hv := ⟨symbol?_layout_var hv, lookup_layout_var hknown hv⟩
  routine := ⟨_, symbol?_layout_routine, rfl, rfl⟩

/-- The handles of the routines are those that the unit scope binds. An item is bound
under the name of its routine, and what is bound was put there with the items. The first
direction needs `Built`, since another binding of the same name could hide the one of
the item. -/
theorem mem_items_layout {rs : List Parsed.Routine} (hbuilt : (layout rs).table.Built)
    (hbound : (layout rs).table.WellBound) (id : SymbolId) :
    id ∈ (layout rs).items ↔ ∃ name, (layout rs).lookup name = some id := by
  constructor
  · intro hid
    obtain ⟨⟨before, r⟩, hmem, rfl⟩ := List.mem_map.mp hid
    obtain ⟨after, rfl⟩ := mem_withEarlier.mp hmem
    exact ⟨_, hbuilt.lookup_routine hbound symbol?_layout_routine⟩
  · rintro ⟨name, hlookup⟩
    have hfound : (unitScopeOf rs).bindings.lookup name = some id := hlookup
    -- A binding of the unit scope was made from one of the routines.
    obtain ⟨earlier, later, hsplit, -⟩ := List.lookup_eq_some_iff.mp hfound
    have hmem : (name, id) ∈ (unitScopeOf rs).bindings := by
      rw [hsplit]
      exact List.mem_append_right earlier List.mem_cons_self
    obtain ⟨entry, hentry, heq⟩ := List.mem_map.mp hmem
    exact List.mem_map.mpr ⟨entry, hentry, congrArg Prod.snd heq⟩

/-- A declared program is laid out. Its table is a layout, so the blocks can be read
off, and it was built by declarations, so each symbol is bound once. The latter could be
shown of the layout too, but `Built` has it already. -/
theorem laidOut_of_declare {t : Parsed.Program} {p : Program}
    (h : (declare t).outcome = .ok p) : LaidOut t.routines p := by
  have hbuilt := built_of_declare h
  have hbound := (declaredFrom_of_declare h).wellBound
  obtain ⟨rfl, hknown⟩ := eq_layout_of_declare h
  constructor
  case scopeCount => exact scopeCount_layout t.routines
  case symbolCount => exact symbolCount_layout t.routines
  case unitScope => exact hasScope_layout_unitScope t.routines
  case blocks =>
    intro before r after hsplit
    rw [hsplit] at hknown ⊢
    exact ownsBlock_layout (hknown r (List.mem_append_right before List.mem_cons_self))
  case items => rfl
  case mem_items => exact mem_items_layout hbuilt hbound
  -- That a symbol is bound once is taken from how the table was built.
  case bound =>
    intro id hid
    obtain ⟨s, hs⟩ := hbuilt.exists_lookup_iff (Array.getElem?_eq_getElem hid)
    exact ⟨_, s, Array.getElem?_eq_getElem hid, hs⟩
  case bindingCount => exact hbuilt.bindingCount_eq

end Declared

/-! ### Sessions -/

section Congr

variable {t t' : SymbolTable}

/-- Symbols of one skeleton belong in the same scopes, since a skeleton keeps the kind
of a symbol. -/
theorem BelongsIn.congr {kind : ScopeKind} {s s' : Symbol} (h : BelongsIn kind s)
    (heq : s'.skeleton = s.skeleton) : BelongsIn kind s' := by
  cases kind <;> obtain ⟨x, rfl⟩ := h <;> cases s' with
  | var v => first | exact ⟨v, rfl⟩ | cases heq
  | routine r => first | exact ⟨r, rfl⟩ | cases heq

/-- Tables of one skeleton have the same scopes, bound to symbols of the same kinds. The
scopes are equal, and the symbols differ in what is filled in, of which
`BelongsIn.congr` says that it does not matter. -/
theorem HasScope.congr {id : ScopeId} {kind : ScopeKind} (h : HasScope t id kind)
    (heq : t.skeleton = t'.skeleton) : HasScope t' id kind := by
  obtain ⟨sc, hsc, hkind, hall⟩ := h
  refine ⟨sc, ?_, hkind, fun b hb => ?_⟩
  · rw [← hsc, SymbolTable.scope?, SymbolTable.scope?, SymbolTable.scopes_congr heq]
  · obtain ⟨symbol, hsymbol, hbelongs⟩ := hall b hb
    obtain ⟨symbol', hsymbol', hskeleton⟩ := SymbolTable.exists_symbol?_congr heq hsymbol
    exact ⟨symbol', hsymbol', hbelongs.congr hskeleton⟩

/-- A routine owns the same block in tables of one skeleton. Its variables are equal in
both, and of the routine only the name and the scope are compared. Bodies and parameters
may be quite different. -/
theorem OwnsBlock.congr {before : List Parsed.Routine} {r : Parsed.Routine}
    (h : OwnsBlock t before r) (heq : t.skeleton = t'.skeleton) : OwnsBlock t' before r where
  scope := h.scope.congr heq
  known := h.known
  locals hv := by
    obtain ⟨hsymbol, hlookup⟩ := h.locals hv
    exact ⟨SymbolTable.symbol?_var_congr heq hsymbol,
      (SymbolTable.lookup_congr heq _ _).symm.trans hlookup⟩
  routine := by
    obtain ⟨routine, hroutine, hname, hscope⟩ := h.routine
    obtain ⟨symbol, hsymbol, hskeleton⟩ := SymbolTable.exists_symbol?_congr heq hroutine
    cases symbol with
    | var v => cases hskeleton
    | routine other =>
        -- Name and scope of a routine can be read off its skeleton.
        have hsame : other.skeleton = routine.skeleton := by injection hskeleton
        exact ⟨other, hsymbol, (congrArg Typed.Routine.name hsame).trans hname,
          (congrArg Typed.Routine.scope hsame).trans hscope⟩

end Congr

/-- Programs of one skeleton are laid out alike. No field speaks of a body or of
parameters. So what is shown of declared programs once holds of whatever passes make of
them. -/
theorem LaidOut.congr {rs : List Parsed.Routine} {p q : Program} (h : LaidOut rs p)
    (heq : p.skeleton = q.skeleton) : LaidOut rs q := by
  have htable := Program.table_skeleton_congr heq
  have hitems := Program.items_congr heq
  have hscopes := SymbolTable.scopes_congr htable
  have hsymbols := SymbolTable.symbolCount_congr htable
  constructor
  case scopeCount => rw [SymbolTable.scopeCount, ← hscopes]; exact h.scopeCount
  case symbolCount => rw [← hsymbols]; exact h.symbolCount
  case unitScope => exact h.unitScope.congr htable
  case blocks => exact fun before r after hsplit => (h.blocks before r after hsplit).congr htable
  case items => rw [← hitems]; exact h.items
  case mem_items =>
    intro id
    rw [← hitems, h.mem_items]
    simp only [Program.lookup, SymbolTable.lookup_congr htable]
  -- The symbol may have changed, but not its name.
  case bound =>
    intro id hid
    rw [← hsymbols] at hid
    obtain ⟨symbol, s, hsymbol, hall⟩ := h.bound id hid
    obtain ⟨symbol', hsymbol', hskeleton⟩ := SymbolTable.exists_symbol?_congr htable hsymbol
    refine ⟨symbol', s, hsymbol', fun s' name => ?_⟩
    rw [← SymbolTable.lookup_congr htable, Symbol.name_congr hskeleton]
    exact hall s' name
  case bindingCount =>
    rw [← hsymbols, SymbolTable.bindingCount, ← hscopes]
    exact h.bindingCount

/-- After a program is declared, and whatever passes it goes through then, with any
parsed programs and whether they fail or not, it has one scope more than routines. The
unit scope comes first and the scopes of the routines follow. The symbols of a routine
come in one block behind those of the routines before it, the variables first, in the
order of their declarations, and the routine last. The unit scope binds the routines in
the list of items, every symbol is bound in one scope and under its own name only, and
the scopes bind as many names as there are symbols.

No pass declares anything, so this is shown of the declared program, by
`laidOut_of_declare`, and carried over to any other of the same skeleton. -/
theorem laidOut_afterSession {t : Parsed.Program} {p : Program}
    (h : (declare t).outcome = .ok p) (session : List Request) :
    LaidOut t.routines (afterSession p session) :=
  (laidOut_of_declare h).congr (skeleton_afterSession p session).symm

/-- A subroutine and a function after it, with a session whose first request fails. The
result of the function comes after the block of the subroutine and before the function's
argument. Its second request links one of the two routines only. -/
theorem laidOut_twice_half :
    ∃ p, (declare ⟨[{ twice with form := .subroutine }, half]⟩).outcome = .ok p ∧
      (resolve {} ⟨[half, { half with name := "third" }]⟩ p).result.outcome =
        .error ⟨.undefinedSymbol "third", .onLine 1 1 16⟩ ∧
      ((afterSession p [.resolve {} ⟨[half, { half with name := "third" }]⟩,
        .link ⟨[half]⟩]).table.symbols.toList.map Symbol.name) =
          ["x", "twice", "half", "x", "half"] ∧
      LaidOut [{ twice with form := .subroutine }, half]
        (afterSession p [.resolve {} ⟨[half, { half with name := "third" }]⟩, .link ⟨[half]⟩]) :=
  ⟨_, rfl, rfl, rfl, laidOut_afterSession (t := ⟨[{ twice with form := .subroutine }, half]⟩) rfl
    [.resolve {} ⟨[half, { half with name := "third" }]⟩, .link ⟨[half]⟩]⟩

end FortranFront.Analysis
