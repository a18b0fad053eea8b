import FortranFront.Analysis.Declared
import FortranFront.Proofs.Locals
import FortranFront.Proofs.Skeleton
import FortranFront.Proofs.SymbolTable
import Mathlib.Data.List.Nodup
import Mathlib.Data.Option.Basic

/-!
# `FortranFront.Proofs.Declared`: what declaring a program establishes

`DeclaredFrom before p` says what is true of the typed program `p` once the parsed
routines `before` have been declared. It has one scope more than routines, it is
well bound, its unit scope binds just the names of the routines, which are all
different, and each routine can be found under its name with a scope that binds
every name it declares.

* `DeclaredFrom.step`: declaring one routine more keeps this. Whatever was found
  before is found after, since the table has only grown.
* `declaredFrom_of_declare`: so it is true of every program that is declared.
-/

set_option autoImplicit false

namespace FortranFront.Analysis

open Typed (Program Variable)

/-- A table with one scope more than a program has, where some variables are declared.
It is what `declareRoutine` has made of the table before it comes to the routine
itself. -/
def localTable (p : Program) (locals : List Variable) : SymbolTable :=
  (p.table.openScope .routine).declareAll p.table.nextScope (locals.map .var)

/-- The variables of a routine are bound in its new scope, and nothing else is new. For
this it does not matter whether their names are different. -/
theorem isSome_lookup_localTable (p : Program) (locals : List Variable) (s : ScopeId)
    (name : String) :
    ((localTable p locals).lookup s name).isSome ↔
      (p.table.lookup s name).isSome ∨
        (s = p.table.nextScope ∧ name ∈ locals.map (·.name)) := by
  unfold localTable
  rw [SymbolTable.isSome_lookup_declareAll (by simp [SymbolTable.nextScope]),
    SymbolTable.lookup_openScope, List.map_map]
  rfl

/-- The table only grows when a scope is opened and variables are declared in it. So all
that was declared before stays where it was. -/
theorem growsTo_localTable (p : Program) (locals : List Variable) :
    p.table.GrowsTo (localTable p locals) :=
  (SymbolTable.GrowsTo.openScope p.table .routine).trans (.declareAll _ _ _)

/-- The three parts of declaring a routine: its variables, the check of its dummy
arguments, and its own name. They stand in the order in which a violation is
reported. -/
theorem outcome_declareRoutine (p : Program) (r : Parsed.Routine) :
    (declareRoutine p r).outcome =
      (localsOf r).outcome.bind fun locals => (checkParameters r).bind fun _ =>
        (Defect.duplicateDefinition r.name).blameNone r.location
          (Program.addRoutine? ⟨localTable p locals, p.items⟩
            (declaredRoutine r p.table.nextSymbol p.table.nextScope)) := by
  simp only [declareRoutine, Traced.outcome_bind, Traced.outcome_log, Traced.outcome_lift]
  rfl

/-- A routine is declared if its variables can be collected, its dummy arguments pass
the check and its name is free. The variables are named in the statement, since the
table that results depends on them. -/
theorem declareRoutine_eq_ok_iff {p q : Program} {r : Parsed.Routine} :
    (declareRoutine p r).outcome = .ok q ↔
      ∃ locals, (localsOf r).outcome = .ok locals ∧ checkParameters r = .ok () ∧
        Program.addRoutine? ⟨localTable p locals, p.items⟩
          (declaredRoutine r p.table.nextSymbol p.table.nextScope) = some q := by
  rw [outcome_declareRoutine]
  constructor
  · intro h
    obtain ⟨locals, hlocals, hrest⟩ := bind_eq_ok_iff.mp h
    obtain ⟨_, hparameters, hadd⟩ := bind_eq_ok_iff.mp hrest
    exact ⟨locals, hlocals, hparameters, blameNone_eq_ok_iff.mp hadd⟩
  · rintro ⟨locals, hlocals, hparameters, hadd⟩
    refine bind_eq_ok_iff.mpr ⟨locals, hlocals, ?_⟩
    exact bind_eq_ok_iff.mpr ⟨(), hparameters, blameNone_eq_ok_iff.mpr hadd⟩

/-- The dummy arguments pass the check if the routine declares all of them. `Declares`
asks for a declaration, which the result of a function is not. -/
theorem checkParameters_eq_ok_iff {r : Parsed.Routine} :
    checkParameters r = .ok () ↔ ∀ a ∈ r.parameters, r.Declares a.name := by
  rw [checkParameters, forM_eq_ok_iff]
  simp only [blameUnless_eq_ok_iff]

/-- A parsed routine is declared under a handle: its name leads there, and the scope of
the routine there binds all that it declares, its dummy arguments among them. The first
handle and the scope are not said to be any in particular. `Proofs/Layout` says which
they are. -/
structure DeclaredAs (table : SymbolTable) (r : Parsed.Routine) (id : SymbolId) : Prop where
  bound : table.lookup Program.unitScope r.name = some id
  routine : ∃ first scope, table.symbol? id = some (.routine (declaredRoutine r first scope)) ∧
    scope ≠ Program.unitScope ∧ ∀ n, r.Declares n → (table.lookup scope n).isSome
  parameters : ∀ a ∈ r.parameters, r.Declares a.name

/-- The routine that a handle leads to is found under the name of the parsed routine.
The routine may have changed since its declaration, as long as it is still a routine. -/
theorem DeclaredAs.findRoutine? {p : Program} {r : Parsed.Routine} {id : SymbolId}
    {routine : Typed.Routine} (h : DeclaredAs p.table r id)
    (hsymbol : p.table.symbol? id = some (.routine routine)) :
    p.findRoutine? r.name = some (id, routine) :=
  Program.findRoutine?_eq_some_iff.mpr ⟨h.bound, hsymbol⟩

/-- What is declared stays declared when the table grows. Only bindings and symbols are
asked for, and a table that grows keeps these. -/
theorem DeclaredAs.grow {t t' : SymbolTable} {r : Parsed.Routine} {id : SymbolId}
    (h : DeclaredAs t r id) (hgrow : t.GrowsTo t') : DeclaredAs t' r id where
  bound := hgrow.lookup h.bound
  routine := by
    obtain ⟨first, scope, hsymbol, hscope, hlocals⟩ := h.routine
    refine ⟨first, scope, hgrow.symbol hsymbol, hscope, fun n hn => ?_⟩
    obtain ⟨i, hi⟩ := Option.isSome_iff_exists.mp (hlocals n hn)
    exact Option.isSome_iff_exists.mpr ⟨i, hgrow.lookup hi⟩
  parameters := h.parameters

/-- What is true of a program after some routines have been declared. The handles in
`items` belong to the routines one by one, so the order of the source can be read off
the program. -/
structure DeclaredFrom (before : List Parsed.Routine) (p : Program) : Prop where
  scopeCount : p.table.scopeCount = before.length + 1
  wellBound : p.table.WellBound
  isSome_lookup : ∀ name, (p.lookup name).isSome ↔ name ∈ before.map (·.name)
  nodup : (before.map (·.name)).Nodup
  items : List.Forall₂ (DeclaredAs p.table) before p.items

namespace DeclaredFrom

variable {before : List Parsed.Routine} {p q : Program} {r : Parsed.Routine}

/-- The program without routines is declared from none. Its one scope is the unit
scope. -/
theorem empty : DeclaredFrom [] Program.empty where
  scopeCount := rfl
  wellBound := SymbolTable.WellBound.empty.openScope .unit
  isSome_lookup name := by
    have hnone : Program.empty.lookup name = none := rfl
    simp [hnone]
  nodup := List.nodup_nil
  items := .nil

/-- Each routine is declared under one of the handles. Which one follows from its place
in the source, but is not needed here. -/
theorem exists_declaredAs (h : DeclaredFrom before p) (hr : r ∈ before) :
    ∃ id ∈ p.items, DeclaredAs p.table r id :=
  exists_partner h.items hr

/-- The handles of the routines are all different, for their symbols bear different
names. The names are different because each was free when its routine was declared. So a
handle in the list of items tells which of the routines it is. -/
theorem nodup_items (h : DeclaredFrom before p) : p.items.Nodup := by
  -- Read as names, the handles are the names of the routines in order.
  have hnames : (before.map (·.name)).map some =
      p.items.map fun id => (p.table.symbol? id).map Typed.Symbol.name := by
    rw [← List.forall₂_eq_eq_eq, List.forall₂_map_left_iff, List.forall₂_map_left_iff,
      List.forall₂_map_right_iff]
    refine h.items.imp fun r id hid => ?_
    obtain ⟨first, scope, hsymbol, -⟩ := hid.routine
    rw [hsymbol]
    rfl
  have hdistinct : ((before.map (·.name)).map some).Nodup :=
    h.nodup.map (Option.some_injective String)
  rw [hnames] at hdistinct
  exact List.Nodup.of_map _ hdistinct

/-- The routines of a program that has the items of a declared one are related to the
parsed routines in order, if each handle leads to a routine that is related to its own.
The relation is left open, and the program `q` may be one that passes have filled in. -/
theorem forall₂_routines {R : Parsed.Routine → Typed.Routine → Prop} (h : DeclaredFrom before p)
    (hitems : q.items = p.items)
    (hR : ∀ r ∈ before, ∀ id, DeclaredAs p.table r id →
      ∃ routine, q.table.symbol? id = some (.routine routine) ∧ R r routine) :
    List.Forall₂ R before q.routines := by
  have hpairs := (List.forall₂_and_left _ _).mpr ⟨fun r hr => hr, h.items⟩
  have hroutines : List.Forall₂ R (before.filterMap some) q.routines := by
    unfold Program.routines
    rw [hitems]
    refine List.rel_filterMap (fun r id hid => ?_) hpairs
    obtain ⟨routine, hroutine, hrelated⟩ := hR r hid.1 id hid.2
    rw [hroutine]
    exact .some hrelated
  rwa [List.filterMap_some] at hroutines

/-- A scope that is opened later is not the unit scope. There is at least one scope
already. -/
theorem nextScope_ne (h : DeclaredFrom before p) : p.table.nextScope ≠ Program.unitScope := by
  intro heq
  have hindex : p.table.scopeCount = 0 := congrArg ScopeId.index heq
  rw [h.scopeCount] at hindex
  cases hindex

/-- The variables of a routine leave the names of the routines before it as they were,
because they are declared in another scope. -/
theorem isSome_lookup_unitScope (h : DeclaredFrom before p) (locals : List Variable)
    (name : String) :
    ((localTable p locals).lookup Program.unitScope name).isSome ↔
      name ∈ before.map (·.name) := by
  rw [isSome_lookup_localTable, ← h.isSome_lookup]
  constructor
  · exact fun hor => hor.resolve_right fun hnew => h.nextScope_ne hnew.1.symm
  · exact Or.inl

/-- The name of a routine can be declared after its variables if no routine before has
it. Variables of this name do no harm, since they are in scopes of their own. -/
theorem isSome_addRoutine?_iff (h : DeclaredFrom before p) (locals : List Variable)
    (routine : Typed.Routine) :
    (Program.addRoutine? ⟨localTable p locals, p.items⟩ routine).isSome ↔
      routine.name ∉ before.map (·.name) := by
  have hscope : Program.unitScope.index < (localTable p locals).scopeCount := by
    simp [localTable, Program.unitScope]
  unfold Program.addRoutine?
  rw [Option.isSome_map, SymbolTable.isSome_declare?_iff hscope,
    ← h.isSome_lookup_unitScope locals, Option.not_isSome_iff_eq_none]
  rfl

/-- The new scope holds variables and is not the unit scope, so the table stays well
bound. -/
theorem wellBound_localTable (h : DeclaredFrom before p) (locals : List Variable) :
    (localTable p locals).WellBound := by
  refine (h.wellBound.openScope .routine).declareAll fun symbol hsymbol => ?_
  obtain ⟨v, -, rfl⟩ := List.mem_map.mp hsymbol
  simp [Typed.Symbol.toRoutine?, h.nextScope_ne]

/-- Declaring one routine more keeps what is true of a declared program. The table grows
in two stages, first by the variables and then by the routine, and each field is carried
over both. -/
theorem step (h : DeclaredFrom before p) (hstep : (declareRoutine p r).outcome = .ok q) :
    DeclaredFrom (before ++ [r]) q := by
  obtain ⟨locals, hlocals, hparameters, hadd⟩ := declareRoutine_eq_ok_iff.mp hstep
  obtain ⟨⟨id, table⟩, hdeclare, rfl⟩ := Option.map_eq_some_iff.mp hadd
  have hgrowLast := SymbolTable.GrowsTo.declare? hdeclare
  have hgrow := (growsTo_localTable p locals).trans hgrowLast
  have hunit := h.isSome_lookup_unitScope locals
  -- The name could be declared, so no routine before has it.
  have hfree : r.name ∉ before.map (·.name) := by
    intro hmem
    have hbound := (hunit r.name).mpr hmem
    have hnone : (localTable p locals).lookup Program.unitScope r.name = none :=
      SymbolTable.lookup_eq_none_of_declare? hdeclare
    rw [hnone] at hbound
    cases hbound
  have hnew : DeclaredAs table r id := by
    refine ⟨?_, ⟨p.table.nextSymbol, p.table.nextScope, ?_, h.nextScope_ne, fun n hn => ?_⟩,
      checkParameters_eq_ok_iff.mp hparameters⟩
    · rw [SymbolTable.lookup_of_declare? hdeclare]
      exact if_pos ⟨rfl, rfl⟩
    · rw [SymbolTable.symbol?_of_declare? hdeclare]
      exact if_pos rfl
    · -- What the routine declares is among its variables, and these are in the new scope.
      have hlocal : n ∈ locals.map (·.name) := by
        obtain ⟨d, hd, hname⟩ := hn
        exact ((localsOf_eq_ok hlocals).mem_names n).mpr (.inr (List.mem_map.mpr ⟨d, hd, hname⟩))
      have hbound := (isSome_lookup_localTable p locals p.table.nextScope n).mpr
        (.inr ⟨rfl, hlocal⟩)
      obtain ⟨i, hi⟩ := Option.isSome_iff_exists.mp hbound
      exact Option.isSome_iff_exists.mpr ⟨i, hgrowLast.lookup hi⟩
  -- Each field is now what it was for the routines before, and the new routine besides.
  constructor
  case scopeCount =>
    show table.scopeCount = (before ++ [r]).length + 1
    rw [SymbolTable.scopeCount_of_declare? hdeclare, List.length_append]
    simp [localTable, h.scopeCount]
  case wellBound =>
    exact (h.wellBound_localTable locals).declare? (by simp [Typed.Symbol.toRoutine?]) hdeclare
  case isSome_lookup =>
    intro name
    show (table.lookup Program.unitScope name).isSome ↔ _
    rw [SymbolTable.lookup_of_declare? hdeclare, List.map_append, List.mem_append, ← hunit]
    by_cases hname : name = r.name
    · simp [hname, Typed.Symbol.name, declaredRoutine]
    · simp [hname, Typed.Symbol.name, declaredRoutine]
  case nodup =>
    rw [List.map_append, List.nodup_append]
    refine ⟨h.nodup, by simp, fun name hold other hnew => ?_⟩
    rw [List.mem_singleton.mp hnew]
    rintro rfl
    exact hfree hold
  case items =>
    -- The older routines stay declared in the table that has grown.
    exact List.rel_append (h.items.imp fun _ _ hr => hr.grow hgrow) (.cons hnew .nil)

end DeclaredFrom

/-- A declared program has a table that is built by opening scopes and declaring
symbols. It is an invariant of its own, kept by every step of the declaration, and needs
nothing of `DeclaredFrom`. -/
theorem built_of_declare {t : Parsed.Program} {p : Program} (h : (declare t).outcome = .ok p) :
    p.table.Built := by
  rw [declare, Traced.outcome_foldlM] at h
  refine foldlM_invariant (fun _ p => p.table.Built) (fun _ p r q hp hstep => ?_)
    (.openScope .unit .empty) h
  obtain ⟨locals, -, -, hadd⟩ := declareRoutine_eq_ok_iff.mp hstep
  obtain ⟨⟨id, table⟩, hdeclare, rfl⟩ := Option.map_eq_some_iff.mp hadd
  exact ((SymbolTable.Built.openScope .routine hp).declareAll _ _).declare? hdeclare

/-- A declared program has all that its routines are declared with. It is
`DeclaredFrom.step` carried along the routines by `foldlM_invariant`. Most statements on
declared programs begin here and do not look at the declaration again. -/
theorem declaredFrom_of_declare {t : Parsed.Program} {p : Program}
    (h : (declare t).outcome = .ok p) : DeclaredFrom t.routines p := by
  rw [declare, Traced.outcome_foldlM] at h
  exact foldlM_invariant DeclaredFrom (fun _ _ _ _ hinv hstep => hinv.step hstep) .empty h

end FortranFront.Analysis
