import FortranFront.Proofs.Joining
import FortranFront.Proofs.WellFormed
import FortranFront.Proofs.Written

/-!
# `FortranFront.Proofs.Composition`: programs analysed apart and together

Routines do not see each other. If a program is cut in two, both parts can be
analysed apart, and the program is the first part with the second `beside` it, its
scopes and symbols under new numbers. The one thing that the parts share is the
unit scope, where no name may occur twice.

The runs over a part and over all of the program are followed side by side:

* `declareRoutine_beside` and `declare_append`: a routine is declared after both
  parts as it is after the second, with handles that have moved on by what the
  first part has. It fails in addition if the first part has its name.
* `Apart`: what is true of two declared parts, and stays true of them in a session.
  `Apart.finds_left` and `Apart.finds_right` say that the routines of each part are
  found in the whole with their variables, and no others.
* `Apart.outcome_run_append` and `Apart.program_run_append`: so a pass over all
  routines does what it does to each part.
* `analyze_append`: all three passes together.
-/

set_option autoImplicit false

namespace FortranFront.Analysis

open Typed (Program Symbol)

/-! ### Declaring routines after others -/

section Declared

variable {p q : Program} {n : Nat} {r : Parsed.Routine}

/-- The variables of a routine can be declared in the second program or in both
together, since the scope they are declared in is a new one. -/
theorem localTable_beside (hp : p.table.scopeCount = n + 1) (hq : 0 < q.table.scopeCount)
    (locals : List Typed.Variable) :
    localTable (p.beside n q) locals = p.table.beside n (localTable q locals) := by
  have hnext := SymbolTable.nextScope_ne_unitScope hq
  show ((p.table.beside n q.table).openScope .routine).declareAll
    (p.table.beside n q.table).nextScope (locals.map .var) = _
  rw [SymbolTable.nextScope_beside hp hq, SymbolTable.openScope_beside hp hq]
  exact SymbolTable.declareAll_beside hp hnext (by simp [SymbolTable.nextScope]) locals

/-- A routine is declared under other numbers as the renumbered routine. Its parameters
and its body are empty, so only its scope and its result have numbers. -/
theorem declaredRoutine_renumber (ρ : Renumbering) (r : Parsed.Routine) (first : SymbolId)
    (scope : ScopeId) :
    declaredRoutine r (ρ.symbol first) (ρ.scope scope) =
      (declaredRoutine r first scope).renumber ρ := by
  unfold declaredRoutine kindOf Typed.Routine.renumber
  cases resultVariable? r <;> rfl

/-- A routine can be added to both programs together if the first one does not have its
name and it can be added to the second. It is stated for a routine of the second
program, whose numbers are shifted on the left side. Only the unit scope is shared by
the two, and this is the one step that writes there. -/
theorem addRoutine?_beside (hp : p.table.scopeCount = n + 1) (hq : 0 < q.table.scopeCount)
    {routine : Typed.Routine} {x : Program} :
    (p.beside n q).addRoutine? (routine.renumber (.shift n p.table.symbolCount)) = some x ↔
      p.lookup routine.name = none ∧
        ∃ q', q.addRoutine? routine = some q' ∧ x = p.beside n q' := by
  unfold Program.addRoutine?
  change ((p.table.beside n q.table).declare? Program.unitScope
    ((Symbol.routine routine).renumber _)).map _ = some x ↔ _
  change _ ↔ p.table.lookup Program.unitScope (Symbol.routine routine).name = none ∧ _
  -- A name of the first program is in the way whatever the second has.
  cases hname : p.table.lookup Program.unitScope (Symbol.routine routine).name with
  | none =>
      rw [SymbolTable.declare?_beside_unitScope hp hq hname]
      cases q.table.declare? Program.unitScope (.routine routine) with
      | none => simp
      | some result =>
          have hitems : (⟨p.table.beside n result.2, (p.beside n q).items ++
              [(Renumbering.shift n p.table.symbolCount).symbol result.1]⟩ : Program) =
              p.beside n ⟨result.2, q.items ++ [result.1]⟩ := by
            simp [Program.beside, Program.join, Program.renumber, SymbolTable.beside]
          simp [hitems, eq_comm]
  | some id =>
      rw [SymbolTable.declare?_beside_of_bound hp hq hname]
      simp

/-- With no routines after it a program is what it was. The empty program still has a
unit scope, and that adds no name. -/
theorem beside_empty (hp : p.table.scopeCount = n + 1) : p.beside n Program.empty = p := by
  obtain ⟨a, as, has, -⟩ := SymbolTable.exists_cons (t := p.table) (by omega)
  obtain ⟨⟨scopes, symbols⟩, items⟩ := p
  change scopes.toList = a :: as at has
  have hscopes : scopes = (a :: as).toArray := by rw [← has]
  simp [Program.beside, Program.join, Program.renumber, SymbolTable.join, SymbolTable.renumber,
    Program.empty, SymbolTable.empty, SymbolTable.openScope, Scope.renumber, Scope.empty,
    joinScopes, Scope.join, hscopes]

/-- A routine is declared after both programs as it is after the second, unless the
first has its name. Its variables and its dummy arguments are checked without any
program, so only the name can make a difference. `foldlM_declareRoutine_beside` repeats
this for all routines of the second program. -/
theorem declareRoutine_beside (hp : p.table.scopeCount = n + 1) (hq : 0 < q.table.scopeCount)
    {x : Program} :
    (declareRoutine (p.beside n q) r).outcome = .ok x ↔
      p.lookup r.name = none ∧
        ∃ q', (declareRoutine q r).outcome = .ok q' ∧ x = p.beside n q' := by
  rw [declareRoutine_eq_ok_iff]
  have hadd : ∀ locals,
      Program.addRoutine? ⟨localTable (p.beside n q) locals, (p.beside n q).items⟩
          (declaredRoutine r (p.beside n q).table.nextSymbol (p.beside n q).table.nextScope) =
        some x ↔ p.lookup r.name = none ∧ ∃ q',
          Program.addRoutine? ⟨localTable q locals, q.items⟩
            (declaredRoutine r q.table.nextSymbol q.table.nextScope) = some q' ∧
          x = p.beside n q' := by
    intro locals
    have hlocals : 0 < (localTable q locals).scopeCount := by simp [localTable]
    -- The new handles of the whole are those of the second program, moved on.
    have hroutine : declaredRoutine r (p.beside n q).table.nextSymbol
        (p.beside n q).table.nextScope =
        (declaredRoutine r q.table.nextSymbol q.table.nextScope).renumber
          (.shift n p.table.symbolCount) := by
      rw [← declaredRoutine_renumber, ← SymbolTable.nextScope_beside hp hq,
        ← SymbolTable.nextSymbol_beside]
      rfl
    rw [localTable_beside hp hq, hroutine]
    exact addRoutine?_beside (q := ⟨localTable q locals, q.items⟩) hp hlocals
  constructor
  · rintro ⟨locals, hlocals, hparameters, h⟩
    obtain ⟨hfree, q', hq', rfl⟩ := (hadd locals).mp h
    exact ⟨hfree, q', declareRoutine_eq_ok_iff.mpr ⟨locals, hlocals, hparameters, hq'⟩, rfl⟩
  · rintro ⟨hfree, q', hdeclare, rfl⟩
    obtain ⟨locals, hlocals, hparameters, hq'⟩ := declareRoutine_eq_ok_iff.mp hdeclare
    exact ⟨locals, hlocals, hparameters, (hadd locals).mpr ⟨hfree, q', hq', rfl⟩⟩

/-- Routines are declared after both programs as they are after the second, unless the
first has one of their names. The induction is on the routines with the second program
left free. `DeclaredFrom` is carried along only to know that this program has its unit
scope. -/
theorem foldlM_declareRoutine_beside {before : List Parsed.Routine}
    (hp : p.table.scopeCount = n + 1) (hq : DeclaredFrom before q) (rs : List Parsed.Routine)
    {x : Program} :
    rs.foldlM (fun p r => (declareRoutine p r).outcome) (p.beside n q) = .ok x ↔
      (∀ r ∈ rs, p.lookup r.name = none) ∧
        ∃ q', rs.foldlM (fun p r => (declareRoutine p r).outcome) q = .ok q' ∧
          x = p.beside n q' := by
  induction rs generalizing q before with
  | nil => simp [pure, Except.pure, eq_comm]
  | cons r rest ih =>
      have hpos : 0 < q.table.scopeCount := by
        rw [hq.scopeCount]
        exact Nat.succ_pos _
      rw [List.foldlM_cons, List.foldlM_cons, List.forall_mem_cons]
      -- One step is `declareRoutine_beside`, and it leaves the first program beside another
      -- second one.
      constructor
      · intro h
        obtain ⟨y, hy, hrest⟩ := bind_eq_ok_iff.mp h
        obtain ⟨hfree, q₁, hq₁, rfl⟩ := (declareRoutine_beside hp hpos).mp hy
        obtain ⟨hfrees, q', hq', rfl⟩ := (ih (hq.step hq₁)).mp hrest
        exact ⟨⟨hfree, hfrees⟩, q', bind_eq_ok_iff.mpr ⟨q₁, hq₁, hq'⟩, rfl⟩
      · rintro ⟨⟨hfree, hfrees⟩, q', hfold, rfl⟩
        obtain ⟨q₁, hq₁, hq'⟩ := bind_eq_ok_iff.mp hfold
        refine bind_eq_ok_iff.mpr ⟨p.beside n q₁, ?_, ?_⟩
        · exact (declareRoutine_beside hp hpos).mpr ⟨hfree, q₁, hq₁, rfl⟩
        · exact (ih (hq.step hq₁)).mpr ⟨hfrees, q', hq', rfl⟩

/-- A declared program has none of some names if no routine that was declared has one.
This brings the condition on the unit scope back to the source. -/
theorem forall_lookup_eq_none_iff {rs₁ rs₂ : List Parsed.Routine}
    (hp : (declare ⟨rs₁⟩).outcome = .ok p) :
    (∀ r₂ ∈ rs₂, p.lookup r₂.name = none) ↔
      ∀ r₁ ∈ rs₁, ∀ r₂ ∈ rs₂, r₁.name ≠ r₂.name := by
  have hbound := (declaredFrom_of_declare hp).isSome_lookup
  simp only [← Option.not_isSome_iff_eq_none, hbound, List.mem_map, not_exists, not_and]
  exact ⟨fun h r₁ hr₁ r₂ hr₂ => h r₂ hr₂ r₁ hr₁, fun h r₂ hr₂ r₁ hr₁ => h r₁ hr₁ r₂ hr₂⟩

/-- The routines of two programs can be declared together if those of each can be and no
name occurs in both. The program is then that of the first beside that of the second.
The first list is declared as it would be alone, and `foldlM_declareRoutine_beside` does
the rest. -/
theorem declare_append {rs₁ rs₂ : List Parsed.Routine} {x : Program} :
    (declare ⟨rs₁ ++ rs₂⟩).outcome = .ok x ↔
      ∃ p q, (declare ⟨rs₁⟩).outcome = .ok p ∧ (declare ⟨rs₂⟩).outcome = .ok q ∧
        (∀ r₁ ∈ rs₁, ∀ r₂ ∈ rs₂, r₁.name ≠ r₂.name) ∧ x = p.beside rs₁.length q := by
  have hsplit : (declare ⟨rs₁ ++ rs₂⟩).outcome = (declare ⟨rs₁⟩).outcome.bind
      (rs₂.foldlM fun p r => (declareRoutine p r).outcome) := by
    simp only [declare, List.foldlM_append, Traced.outcome_bind, Traced.outcome_foldlM]
  -- The second list is declared after the first, which is beside a program without routines.
  have hrest : ∀ {p}, (declare ⟨rs₁⟩).outcome = .ok p →
      (rs₂.foldlM (fun p r => (declareRoutine p r).outcome) p = .ok x ↔
        (∀ r ∈ rs₂, p.lookup r.name = none) ∧
          ∃ q, (declare ⟨rs₂⟩).outcome = .ok q ∧ x = p.beside rs₁.length q) := by
    intro p hp
    have hcount := (declaredFrom_of_declare hp).scopeCount
    have hfold := foldlM_declareRoutine_beside (x := x) hcount .empty rs₂
    rw [beside_empty hcount] at hfold
    simpa only [declare, Traced.outcome_foldlM] using hfold
  rw [hsplit]
  constructor
  · intro h
    obtain ⟨p, hp, hx⟩ := bind_eq_ok_iff.mp h
    obtain ⟨hnone, q, hq, rfl⟩ := (hrest hp).mp hx
    exact ⟨p, q, hp, hq, (forall_lookup_eq_none_iff hp).mp hnone, rfl⟩
  · rintro ⟨p, q, hp, hq, hnames, rfl⟩
    have hnone := (forall_lookup_eq_none_iff hp).mpr hnames
    exact bind_eq_ok_iff.mpr ⟨p, hp, (hrest hp).mpr ⟨hnone, q, hq, rfl⟩⟩

end Declared

/-! ### Writing to either program -/

section Writes

variable {p q : Program} {n : Nat} {id : SymbolId}

/-- A change to a routine of the first program is a change to the first program. The
handle has to be one of the first table, and then the second is not touched. A handle of
the second table is dealt with by `modifyRoutine_beside_right`. -/
theorem modifyRoutine_beside_left (hid : id.index < p.table.symbolCount)
    (f : Typed.Routine → Typed.Routine) :
    (p.beside n q).modifyRoutine id f = (p.modifyRoutine id f).beside n q := by
  have hcount : (p.modifyRoutine id f).table.symbolCount = p.table.symbolCount :=
    SymbolTable.symbolCount_modify _ _ _
  have htable : (p.table.beside n q.table).modify id (·.mapRoutine f) =
      (p.modifyRoutine id f).table.beside n q.table := SymbolTable.modify_beside_left hid
  unfold Program.beside
  rw [hcount]
  refine congrArg (Program.mk · _) (htable.trans ?_)
  unfold SymbolTable.beside
  rw [hcount]
  rfl

/-- A change to a routine of the second program is the change to the second program, if
it can be made before or after the routine gets its new numbers. -/
theorem modifyRoutine_beside_right {f f' : Typed.Routine → Typed.Routine}
    (hf : ∀ r, f' (r.renumber (.shift n p.table.symbolCount)) =
      (f r).renumber (.shift n p.table.symbolCount)) :
    (p.beside n q).modifyRoutine ((Renumbering.shift n p.table.symbolCount).symbol id) f' =
      p.beside n (q.modifyRoutine id f) := by
  have htable : (p.table.beside n q.table).modify
      ((Renumbering.shift n p.table.symbolCount).symbol id) (·.mapRoutine f') =
      p.table.beside n (q.table.modify id (·.mapRoutine f)) := by
    refine SymbolTable.modify_beside_right fun s => ?_
    cases s with
    | var v => rfl
    | routine r => exact congrArg Symbol.routine (hf r)
  exact congrArg (Program.mk · _) htable

/-- Plans for routines of the first program are carried out there, one after the
other. -/
theorem writeAll_beside_left {α : Type} (F : Filling α) {ws : List (SymbolId × α)}
    (hws : ∀ w ∈ ws, w.1.index < p.table.symbolCount) :
    F.writeAll (p.beside n q) ws = (F.writeAll p ws).beside n q := by
  induction ws generalizing p with
  | nil => rfl
  | cons w rest ih =>
      obtain ⟨hw, hrest⟩ := List.forall_mem_cons.mp hws
      show F.writeAll ((p.beside n q).modifyRoutine w.1 (F.put w.2)) rest = _
      rw [modifyRoutine_beside_left hw]
      exact ih (by simpa [Program.modifyRoutine] using hrest)

/-- Plans for routines of the second program are carried out there, and what they write
gets its new numbers before or after that. The law `put` of `Filling.Renumbers` is what
makes this true of a single plan. -/
theorem writeAll_beside_right {α : Type} {F : Filling α} {renumber : Renumbering → α → α}
    (hF : F.Renumbers renumber) (ws : List (SymbolId × α)) :
    F.writeAll (p.beside n q) (ws.map (Prod.map
        (Renumbering.shift n p.table.symbolCount).symbol
        (renumber (.shift n p.table.symbolCount)))) =
      p.beside n (F.writeAll q ws) := by
  induction ws generalizing q with
  | nil => rfl
  | cons w rest ih =>
      show F.writeAll ((p.beside n q).modifyRoutine
        ((Renumbering.shift n p.table.symbolCount).symbol w.1) (F.put (renumber _ w.2))) _ = _
      rw [modifyRoutine_beside_right (hF.put _ w.2)]
      exact ih

end Writes

/-! ### Passes over both programs -/

/-- Two programs of different routines. The first has the names of the routines `rs₁`,
and it has none of those of `rs₂`. All that is asked depends on the skeletons or is kept
by passes, so it can be carried through the analysis: `apart_of_declare` establishes it,
and `Apart.serve` keeps it. -/
structure Apart (rs₁ rs₂ : List Parsed.Routine) (p q : Program) : Prop where
  left : p.WellFormed
  right : q.WellFormed
  scopeCount : p.table.scopeCount = rs₁.length + 1
  pos : 0 < q.table.scopeCount
  bound : ∀ r ∈ rs₁, (p.lookup r.name).isSome
  free : ∀ r ∈ rs₂, p.lookup r.name = none

namespace Apart

variable {rs₁ rs₂ : List Parsed.Routine} {p q : Program} {r : Parsed.Routine}

/-- A routine of the first program is found as it was, with its variables. The numbers
do not change, hence the identity as renumbering. -/
theorem finds_left (h : Apart rs₁ rs₂ p q) (hr : r ∈ rs₁) :
    FindsRenumbered .id p (p.beside rs₁.length q) r.name where
  routine := (SymbolTable.carries_beside_left h.scopeCount h.pos h.left.wellBound
    (Nat.zero_le _) fun _ => h.bound r hr).findRoutine?
  locals {found} hfound name := by
    have hroutine := h.left.routines (Program.findRoutine?_eq_some_iff.mp hfound).2
    have hlt := hroutine.scope_lt
    rw [h.scopeCount] at hlt
    exact (SymbolTable.carries_beside_left h.scopeCount h.pos h.left.wellBound
      (Nat.le_of_lt_succ hlt) fun hs => absurd hs hroutine.scope_ne).findVariable?

/-- A routine of the second program is found under its new numbers, and so are its
variables. If the name is not found in the second program it is not found in both
together either, because the first does not have it. -/
theorem finds_right (h : Apart rs₁ rs₂ p q) (hr : r ∈ rs₂) :
    FindsRenumbered (.shift rs₁.length p.table.symbolCount) q (p.beside rs₁.length q) r.name where
  routine := by
    have hunit := SymbolTable.carries_beside_right (s := Program.unitScope) h.scopeCount h.pos
      fun _ => h.free r hr
    have hfind := hunit.findRoutine?
    rwa [Renumbering.scope_shift_unitScope] at hfind
  locals {found} hfound name := by
    have hroutine := h.right.routines (Program.findRoutine?_eq_some_iff.mp hfound).2
    exact (SymbolTable.carries_beside_right h.scopeCount h.pos
      fun hs => absurd hs hroutine.scope_ne).findVariable?

/-- Requests to either program leave them apart. They keep the skeletons, on which all
counts and lookups depend, and they keep programs well formed. The two requests need not
be of one kind, nor both succeed. -/
theorem serve (h : Apart rs₁ rs₂ p q) (a b : Request) :
    Apart rs₁ rs₂ (a.serve p) (b.serve q) := by
  have hp := Program.table_skeleton_congr (a.skeleton_serve p)
  have hq := Program.table_skeleton_congr (b.skeleton_serve q)
  have hlookup : ∀ name, (a.serve p).lookup name = p.lookup name :=
    SymbolTable.lookup_congr hp Program.unitScope
  constructor
  case left => exact a.wellFormed_serve h.left
  case right => exact b.wellFormed_serve h.right
  case scopeCount =>
    rw [← SymbolTable.scopeCount_skeleton, hp]
    exact h.scopeCount
  case pos =>
    rw [← SymbolTable.scopeCount_skeleton, hq]
    exact h.pos
  -- What is left is about names of routines, which are looked up in the skeleton.
  case bound =>
    intro r hr
    rw [hlookup]
    exact h.bound r hr
  case free =>
    intro r hr
    rw [hlookup]
    exact h.free r hr

section Run

variable {α : Type} {F : Filling α} {renumber : Renumbering → α → α}

/-- A pass over the routines of both programs succeeds if it succeeds over each program.
A pass succeeds if all its plans can be made, and by `exists_plan_iff` each plan can be
made in the whole exactly if it can be made in its part. -/
theorem outcome_run_append (h : Apart rs₁ rs₂ p q) (hF : F.Renumbers renumber) :
    (Pass.run F.step (p.beside rs₁.length q) (rs₁ ++ rs₂)).result.outcome = .ok () ↔
      (Pass.run F.step p rs₁).result.outcome = .ok () ∧
        (Pass.run F.step q rs₂).result.outcome = .ok () := by
  rw [F.outcome_run_eq_ok_iff, F.outcome_run_eq_ok_iff, F.outcome_run_eq_ok_iff,
    List.forall_mem_append]
  exact and_congr (forall₂_congr fun r hr => hF.exists_plan_iff (h.finds_left hr))
    (forall₂_congr fun r hr => hF.exists_plan_iff (h.finds_right hr))

/-- What a pass over the routines of both programs leaves is what it leaves of each, if
it gets through the first. If it did not, it would not come to the second at all, and a
pass over the second alone would. By `Apart.finds_left` and `Apart.finds_right` the
plans made in the whole are those of the parts, and each of them writes to its own
part. -/
theorem program_run_append (h : Apart rs₁ rs₂ p q) (hF : F.Renumbers renumber)
    (hok : (Pass.run F.step p rs₁).result.outcome = .ok ()) :
    (Pass.run F.step (p.beside rs₁.length q) (rs₁ ++ rs₂)).program =
      (Pass.run F.step p rs₁).program.beside rs₁.length (Pass.run F.step q rs₂).program := by
  have hplans : ∀ r ∈ rs₁, ∃ w, F.plan (p.beside rs₁.length q) r = .ok w := fun r hr =>
    (hF.exists_plan_iff (h.finds_left hr)).mpr (F.outcome_run_eq_ok_iff.mp hok r hr)
  -- The plans for the first routines are literally those that the first program makes.
  have hleft : F.writes (p.beside rs₁.length q) rs₁ = F.writes p rs₁ := by
    rw [hF.writes fun r hr => h.finds_left hr]
    refine List.map_id'' (fun w => ?_) _
    exact Prod.ext rfl (hF.id w.2)
  -- They write to handles of the first table, where their routines were found.
  have hhandles : ∀ w ∈ F.writes p rs₁, w.1.index < p.table.symbolCount := by
    intro w hw
    obtain ⟨r, -, hplan⟩ := exists_source (F.forall₂_writes (F.outcome_run_eq_ok_iff.mp hok)) hw
    obtain ⟨routine, hfound, -⟩ := Filling.plan_eq_ok_iff.mp hplan
    exact SymbolTable.lt_of_symbol? (Program.findRoutine?_eq_some_iff.mp hfound).2
  -- The shift of the second table is still right after the first one has been written to.
  have hcount : (F.writeAll p (F.writes p rs₁)).table.symbolCount = p.table.symbolCount :=
    SymbolTable.symbolCount_congr (Program.table_skeleton_congr (F.skeleton_writeAll p _))
  have hright := hF.writes fun r hr => h.finds_right hr
  rw [F.program_run, F.program_run, F.program_run, F.writes_append hplans, hleft, hright,
    F.writeAll_append, writeAll_beside_left F hhandles, ← hcount]
  exact writeAll_beside_right hF _

end Run

/-- Resolution of all bodies succeeds if it succeeds in each program. It is
`outcome_run_append` for bodies. -/
theorem outcome_resolve_append (h : Apart rs₁ rs₂ p q) (options : Options) :
    (resolve options ⟨rs₁ ++ rs₂⟩ (p.beside rs₁.length q)).result.outcome = .ok () ↔
      (resolve options ⟨rs₁⟩ p).result.outcome = .ok () ∧
        (resolve options ⟨rs₂⟩ q).result.outcome = .ok () := by
  simp only [resolve_eq_run]
  exact h.outcome_run_append (bodies_renumbers options)

/-- Resolution of all bodies leaves what it leaves of each program. It is
`program_run_append` for bodies. -/
theorem program_resolve_append (h : Apart rs₁ rs₂ p q) (options : Options)
    (hok : (resolve options ⟨rs₁⟩ p).result.outcome = .ok ()) :
    (resolve options ⟨rs₁ ++ rs₂⟩ (p.beside rs₁.length q)).program =
      (resolve options ⟨rs₁⟩ p).program.beside rs₁.length
        (resolve options ⟨rs₂⟩ q).program := by
  simp only [resolve_eq_run] at hok ⊢
  exact h.program_run_append (bodies_renumbers options) hok

/-- Linking of all parameters succeeds if it succeeds in each program. It is
`outcome_run_append` for parameters. -/
theorem outcome_link_append (h : Apart rs₁ rs₂ p q) :
    (link ⟨rs₁ ++ rs₂⟩ (p.beside rs₁.length q)).result.outcome = .ok () ↔
      (link ⟨rs₁⟩ p).result.outcome = .ok () ∧ (link ⟨rs₂⟩ q).result.outcome = .ok () := by
  simp only [link_eq_run]
  exact h.outcome_run_append parameters_renumbers

/-- Linking of all parameters leaves what it leaves of each program. It is
`program_run_append` for parameters. -/
theorem program_link_append (h : Apart rs₁ rs₂ p q)
    (hok : (link ⟨rs₁⟩ p).result.outcome = .ok ()) :
    (link ⟨rs₁ ++ rs₂⟩ (p.beside rs₁.length q)).program =
      (link ⟨rs₁⟩ p).program.beside rs₁.length (link ⟨rs₂⟩ q).program := by
  simp only [link_eq_run] at hok ⊢
  exact h.program_run_append parameters_renumbers hok

end Apart

/-- Programs that were declared from routines of different names are apart. Both are
well formed, and the unit scope of the first binds the names of its routines and no
others. -/
theorem apart_of_declare {rs₁ rs₂ : List Parsed.Routine} {p q : Program}
    (hp : (declare ⟨rs₁⟩).outcome = .ok p) (hq : (declare ⟨rs₂⟩).outcome = .ok q)
    (hnames : ∀ r₁ ∈ rs₁, ∀ r₂ ∈ rs₂, r₁.name ≠ r₂.name) : Apart rs₁ rs₂ p q where
  left := wellFormed_of_declare hp
  right := wellFormed_of_declare hq
  scopeCount := (declaredFrom_of_declare hp).scopeCount
  pos := by
    rw [(declaredFrom_of_declare hq).scopeCount]
    exact Nat.succ_pos _
  bound r hr := ((declaredFrom_of_declare hp).isSome_lookup r.name).mpr
    (List.mem_map.mpr ⟨r, hr, rfl⟩)
  free := (forall_lookup_eq_none_iff hp).mpr hnames

/-- Two programs can be analysed together if each of them can be analysed and no name
occurs in both. The result is then that of the first joined with that of the second. All
of the first keeps its numbers. Scopes and symbols of the second get new ones, after
those of the first, wherever they occur, and nothing else changes.

The three passes are compared one after the other. After the declaration the two
programs are `Apart`, which says that neither finds anything of the other, and each pass
keeps that up. Both directions of the statement use the same lemmas, as all of them are
equivalences. -/
theorem analyze_append (options : Options) (t₁ t₂ : Parsed.Program) (q : Program) :
    (analyze options ⟨t₁.routines ++ t₂.routines⟩).outcome = .ok q ↔
      ∃ q₁ q₂, (analyze options t₁).outcome = .ok q₁ ∧ (analyze options t₂).outcome = .ok q₂ ∧
        (∀ r₁ ∈ t₁.routines, ∀ r₂ ∈ t₂.routines, r₁.name ≠ r₂.name) ∧
        q = q₁.join (q₂.renumber (.shift t₁.routines.length q₁.table.symbolCount)) := by
  simp only [analyze_eq_ok_iff]
  constructor
  · rintro ⟨p, hp, hresolve, hlink, rfl⟩
    obtain ⟨p₁, p₂, hp₁, hp₂, hnames, rfl⟩ := declare_append.mp hp
    have hapart := apart_of_declare hp₁ hp₂ hnames
    obtain ⟨hresolve₁, hresolve₂⟩ := (hapart.outcome_resolve_append options).mp hresolve
    rw [hapart.program_resolve_append options hresolve₁] at hlink ⊢
    -- After the resolution the two programs are apart still.
    have hresolved := hapart.serve (.resolve options t₁) (.resolve options t₂)
    obtain ⟨hlink₁, hlink₂⟩ := hresolved.outcome_link_append.mp hlink
    exact ⟨_, _, ⟨p₁, hp₁, hresolve₁, hlink₁, rfl⟩, ⟨p₂, hp₂, hresolve₂, hlink₂, rfl⟩, hnames,
      hresolved.program_link_append hlink₁⟩
  · rintro ⟨q₁, q₂, ⟨p₁, hp₁, hresolve₁, hlink₁, rfl⟩, ⟨p₂, hp₂, hresolve₂, hlink₂, rfl⟩, hnames,
      rfl⟩
    have hapart := apart_of_declare hp₁ hp₂ hnames
    -- Neither program has changed in what `Apart` asks for, so linking can be put together as
    -- resolution was.
    have hresolved := hapart.serve (.resolve options t₁) (.resolve options t₂)
    have hprogram := hapart.program_resolve_append options hresolve₁
    refine ⟨_, declare_append.mpr ⟨p₁, p₂, hp₁, hp₂, hnames, rfl⟩,
      (hapart.outcome_resolve_append options).mpr ⟨hresolve₁, hresolve₂⟩, ?_, ?_⟩
    · rw [hprogram]
      exact hresolved.outcome_link_append.mpr ⟨hlink₁, hlink₂⟩
    · rw [hprogram]
      exact hresolved.program_link_append hlink₁

end FortranFront.Analysis
