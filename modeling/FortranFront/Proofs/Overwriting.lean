import FortranFront.Proofs.WellFormed
import FortranFront.Proofs.Written

/-!
# `FortranFront.Proofs.Overwriting`: what a pass changes and what it leaves alone

A pass works through a parsed program until it fails. `Pass.reach` counts the
routines it gets through. `Overwrites` says what has become of the typed program
then. Each routine has the part that comes from the last of these parsed routines
that bears its name, computed in the program before the pass. A routine that none
of them names has the part it had. Nothing else has changed.

* `forall₂_writes_take`: a pass carries out the plans for the routines it gets
  through and no others.
* `Filling.overwrites_run`: so that is what any pass of this kind does.
* `passes_overwrite`: resolution does it to bodies and linking to parameters, in
  every program that can be reached, whatever the pass reads and however it ends.
-/

set_option autoImplicit false

namespace FortranFront.Analysis

open Typed (Program)

/-- How many routines a pass gets through before it stops. It is read off the steps of
the pass themselves and not from what they leave, so it may be compared with the number
of routines. -/
def Pass.reach (step : Program → Parsed.Routine → Traced Program) (p : Program) :
    List Parsed.Routine → Nat
  | [] => 0
  | r :: rest =>
      match (step p r).outcome with
      | .error _ => 0
      | .ok changed => Pass.reach step changed rest + 1

/-- One part of the routines of `p` was overwritten, and this has led to `q`. The parsed
routines `done` have been read for it. What a part is computed from and how it is put
into a routine is given by `part` and `put`.

The first two fields decide what each routine has become, and together they leave
nothing open: either one of `done` bears its name, and then there is a last one that
does, or none. The others say that nothing but routines was touched. -/
structure Overwrites {α : Type} (part : ScopeId → Parsed.Routine → Except Diagnostic α)
    (put : α → Typed.Routine → Typed.Routine) (done : List Parsed.Routine) (p q : Program) :
    Prop where
  /-- The last routine of a name decides. -/
  last : ∀ {id routine before r after}, p.table.symbol? id = some (.routine routine) →
    done = before ++ r :: after → r.name = routine.name →
    (∀ later ∈ after, later.name ≠ routine.name) →
    ∃ x, part routine.scope r = .ok x ∧
      q.table.symbol? id = some (.routine (put x routine))
  /-- A routine that is not named keeps all it had. -/
  other : ∀ {id routine}, p.table.symbol? id = some (.routine routine) →
    (∀ r ∈ done, r.name ≠ routine.name) → q.table.symbol? id = some (.routine routine)
  vars : ∀ {id v}, p.table.symbol? id = some (.var v) → q.table.symbol? id = some (.var v)
  symbolCount : q.table.symbolCount = p.table.symbolCount
  scopes : q.table.scopes = p.table.scopes
  items : q.items = p.items

namespace Filling

variable {α : Type} (F : Filling α) {p q : Program}

/-! ### How far a pass gets -/

/-- A pass over `q` gets through as many routines as it has plans made on `p` to carry
out. The plans may be made on `p` because they depend on the skeleton. The induction
changes `q` with every step, which `skeleton_write` allows. With this the index of a
failure can be read off the plans. -/
theorem reach_of_skeleton (h : q.skeleton = p.skeleton) (rs : List Parsed.Routine) :
    Pass.reach F.step q rs = (F.writes p rs).length := by
  induction rs generalizing q with
  | nil => rfl
  | cons r rest ih =>
      have hplan := F.plan_congr h r
      unfold Pass.reach writes
      -- A failing plan ends the pass and the list of writes alike.
      cases hp : F.plan p r with
      | error e =>
          rw [hp] at hplan
          simp only [F.outcome_step_of_error hplan, List.length_nil]
      | ok w =>
          rw [hp] at hplan
          simp only [F.outcome_step_of_ok hplan, List.length_cons]
          rw [ih ((F.skeleton_write q w.1 w.2).trans h)]

/-- The plans that are carried out are those for the routines the pass gets through, one
for each and in their order. So a pass that fails does so at the routine whose index is
the number of its writes. -/
theorem forall₂_writes_take (p : Program) (rs : List Parsed.Routine) :
    List.Forall₂ (fun r w => F.plan p r = .ok w) (rs.take (F.writes p rs).length)
      (F.writes p rs) := by
  induction rs with
  | nil => exact .nil
  | cons r rest ih =>
      unfold writes
      cases hp : F.plan p r with
      | error e => exact .nil
      | ok w => exact .cons hp ih

/-- A pass succeeds if it gets through all its routines. One direction counts the plans
of `forall₂_writes`, and the other finds a plan for each routine in the list of
plans. -/
theorem outcome_run_eq_ok_iff_reach (p : Program) (rs : List Parsed.Routine) :
    (Pass.run F.step p rs).result.outcome = .ok () ↔ Pass.reach F.step p rs = rs.length := by
  rw [F.outcome_run_eq_ok_iff, F.reach_of_skeleton rfl]
  constructor
  · intro h
    exact (F.forall₂_writes h).length_eq.symm
  · intro hlength r hr
    have hwrites := F.forall₂_writes_take p rs
    rw [hlength, List.take_length] at hwrites
    obtain ⟨w, -, hw⟩ := exists_partner hwrites hr
    exact ⟨w, hw⟩

/-! ### What a pass has changed -/

/-- A plan for a routine of another name writes to another handle. The table has to be
well bound for this: then a handle that is bound to a name leads to a symbol of this
name, so no two names lead to one handle. -/
theorem fst_ne_of_plan (hbound : p.table.WellBound) {id : SymbolId} {routine : Typed.Routine}
    (hroutine : p.table.symbol? id = some (.routine routine)) {r : Parsed.Routine}
    (hname : r.name ≠ routine.name) {w : SymbolId × α} (hw : F.plan p r = .ok w) : w.1 ≠ id := by
  rintro rfl
  obtain ⟨found, hfound, -⟩ := plan_eq_ok_iff.mp hw
  -- The handle is bound to the name of `r`, and so that is the name of the symbol there.
  have hlookup := (Program.findRoutine?_eq_some_iff.mp hfound).1
  obtain ⟨symbol, hsymbol, hsame, -⟩ := hbound _ _ _ hlookup
  rw [hroutine] at hsymbol
  cases hsymbol
  exact hname hsame.symm

/-- A pass overwrites its part of the routines that it gets through, if every routine
can be found under its name. Without `hfind` a parsed routine could be planned for
another handle than that of the routine it names. Both assumptions hold in every program
that is reached from a declared one (`findRoutine?_afterSession`). -/
theorem overwrites_run (hbound : p.table.WellBound)
    (hfind : ∀ {id routine}, p.table.symbol? id = some (.routine routine) →
      p.findRoutine? routine.name = some (id, routine)) (rs : List Parsed.Routine) :
    Overwrites (fun scope r => (F.compute p.table scope r).outcome) F.put
      (rs.take (Pass.reach F.step p rs)) p (Pass.run F.step p rs).program := by
  have hwrites := F.forall₂_writes_take p rs
  rw [F.reach_of_skeleton rfl]
  generalize rs.take (F.writes p rs).length = done at hwrites
  have hplans : ∀ r ∈ done, ∃ w, F.plan p r = .ok w := fun r hr =>
    (exists_partner hwrites hr).imp fun w hw => hw.2
  have hsymbol : ∀ id, (Pass.run F.step p rs).program.table.symbol? id =
      (p.table.symbol? id).map (·.mapRoutine (F.written (F.writes p done) id)) := by
    intro id
    rw [F.program_run, symbol?_writeAll, F.writes_eq_of_forall₂ hwrites]
  -- Routines that do not bear the name of a routine do not write to its handle.
  have hskip : ∀ {id routine}, p.table.symbol? id = some (.routine routine) →
      ∀ rs' : List Parsed.Routine, (∀ r ∈ rs', r.name ≠ routine.name) →
        ∀ w ∈ F.writes p rs', w.1 ≠ id := by
    intro id routine hroutine rs' hnames w hw
    obtain ⟨r, hr, hplan⟩ := exists_source (F.forall₂_writes_take p rs') hw
    exact F.fst_ne_of_plan hbound hroutine (hnames r (List.mem_of_mem_take hr)) hplan
  have hskeleton := F.skeleton_run p rs
  have htable := Program.table_skeleton_congr hskeleton
  constructor
  case last =>
    rintro id routine before r after hroutine rfl hname hafter
    -- The plan for `r` is made for the routine, and the later ones are for other handles.
    obtain ⟨⟨i, x⟩, hx⟩ := hplans r (List.mem_append_right before List.mem_cons_self)
    obtain ⟨found, hfound, hpart⟩ := plan_eq_ok_iff.mp hx
    rw [hname, hfind hroutine] at hfound
    cases hfound
    refine ⟨x, hpart, ?_⟩
    have hsplit : F.writes p (before ++ r :: after) =
        F.writes p before ++ (id, x) :: F.writes p after := by
      rw [F.writes_append fun r' hr' => hplans r' (List.mem_append_left _ hr')]
      simp [writes, hx]
    have hlast : F.written (F.writes p (before ++ r :: after)) id routine = F.put x routine := by
      rw [hsplit]
      exact F.written_of_last (hskip hroutine after hafter) routine
    rw [hsymbol, hroutine, Option.map_some, Typed.Symbol.mapRoutine, hlast]
  case other =>
    intro id routine hroutine hnone
    have hkept : F.written (F.writes p done) id routine = routine :=
      F.written_of_forall_ne (hskip hroutine done hnone) routine
    rw [hsymbol, hroutine, Option.map_some, Typed.Symbol.mapRoutine, hkept]
  case vars => exact fun hv => SymbolTable.symbol?_var_congr htable.symm hv
  case symbolCount => exact SymbolTable.symbolCount_congr htable
  case scopes => exact SymbolTable.scopes_congr htable
  case items => exact Program.items_congr hskeleton

end Filling

/-! ### Programs that can be reached -/

/-- After any session, a routine is found under its name. It was declared there, and no
pass binds anything (`skeleton_afterSession`), so the handle found is the same as at
first. -/
theorem findRoutine?_afterSession {t : Parsed.Program} {p : Program}
    (h : (declare t).outcome = .ok p) (session : List Request) {id : SymbolId}
    {routine : Typed.Routine}
    (hroutine : (afterSession p session).table.symbol? id = some (.routine routine)) :
    (afterSession p session).findRoutine? routine.name = some (id, routine) := by
  have htable := Program.table_skeleton_congr (skeleton_afterSession p session)
  -- The routine was declared under that name, and the session has not changed the binding.
  obtain ⟨symbol, hsymbol, hsame⟩ := SymbolTable.exists_symbol?_congr htable hroutine
  cases symbol with
  | var v => cases hsame
  | routine declared =>
      have hname : declared.name = routine.name := Typed.Symbol.name_congr hsame
      have hlookup := (built_of_declare h).lookup_routine
        (declaredFrom_of_declare h).wellBound hsymbol
      rw [hname, ← SymbolTable.lookup_congr htable] at hlookup
      exact Program.findRoutine?_eq_some_iff.mpr ⟨hlookup, hroutine⟩

/-- In any program that can be reached, a pass over any parsed program overwrites one
part of the routines it gets through and changes nothing else. Resolution puts in the
body that the last parsed routine of the name resolves to, and linking the parameters
that its dummy arguments are linked to. All names are looked up in the program before
the pass. The pass succeeds if it gets through all routines.

Both halves are instances of `Filling.overwrites_run`. That the program can be reached
from a declaration is used for one thing: every routine in it is found under its own
name, so just one handle is written to for each name. -/
theorem passes_overwrite {t : Parsed.Program} {p : Program} (h : (declare t).outcome = .ok p)
    (session : List Request) (options : Options) (t' : Parsed.Program) :
    let u := afterSession p session
    let k := Pass.reach (resolveRoutine options) u t'.routines
    let l := Pass.reach linkRoutine u t'.routines
    ((resolve options t' u).result.outcome = .ok () ↔ k = t'.routines.length) ∧
      Overwrites (fun scope r => r.body.mapM fun a =>
          (resolveAssignment options u.table scope a).outcome)
        (fun body routine => { routine with body := body }) (t'.routines.take k) u
        (resolve options t' u).program ∧
      ((link t' u).result.outcome = .ok () ↔ l = t'.routines.length) ∧
      Overwrites (fun scope r => r.parameters.mapM (linkParameter u.table scope))
        (fun parameters routine => { routine with parameters := parameters })
        (t'.routines.take l) u (link t' u).program := by
  intro u k l
  have hbound : u.table.WellBound :=
    (wellFormed_session (wellFormed_of_declare h) session).wellBound
  -- A routine of the program is found under its name, so there is just one with this name.
  have hfind : ∀ {id routine}, u.table.symbol? id = some (.routine routine) →
      u.findRoutine? routine.name = some (id, routine) := findRoutine?_afterSession h session
  have hbodies := (bodies options).overwrites_run hbound hfind t'.routines
  have hparameters := parameters.overwrites_run hbound hfind t'.routines
  simp only [outcome_compute_bodies, ← resolveRoutine_eq_step] at hbodies
  simp only [outcome_compute_parameters, ← linkRoutine_eq_step] at hparameters
  refine ⟨?_, hbodies, ?_, hparameters⟩
  · show (resolve options t' u).result.outcome = .ok () ↔
      Pass.reach (resolveRoutine options) u t'.routines = _
    rw [resolve_eq_run, resolveRoutine_eq_step]
    exact (bodies options).outcome_run_eq_ok_iff_reach u t'.routines
  · show (link t' u).result.outcome = .ok () ↔ Pass.reach linkRoutine u t'.routines = _
    rw [link_eq_run, linkRoutine_eq_step]
    exact parameters.outcome_run_eq_ok_iff_reach u t'.routines

/-- A program that has `half` twice, first without a body, and after it a function that was not
declared with the others. -/
def revisedHalf : Parsed.Program where
  routines := [{ half with body := [] }, half, { half with name := "fourth" },
    { half with name := "third" }]

/-- Resolution gets through both versions of `half` and fails at the function that is not there.
So `half` has the second body, and `third`, which comes too late, has none. -/
theorem revisedHalf_overwrites :
    ∃ p, (declare ⟨[half, { half with name := "third" }]⟩).outcome = .ok p ∧
      Pass.reach (resolveRoutine {}) (afterSession p [.link ⟨[half]⟩]) revisedHalf.routines = 2 ∧
      Overwrites (fun scope r => r.body.mapM fun a =>
          (resolveAssignment {} (afterSession p [.link ⟨[half]⟩]).table scope a).outcome)
        (fun body routine => { routine with body := body }) (revisedHalf.routines.take 2)
        (afterSession p [.link ⟨[half]⟩])
        (resolve {} revisedHalf (afterSession p [.link ⟨[half]⟩])).program :=
  ⟨_, rfl, rfl, (passes_overwrite (t := ⟨[half, { half with name := "third" }]⟩) rfl
    [.link ⟨[half]⟩] {} revisedHalf).2.1⟩

end FortranFront.Analysis
