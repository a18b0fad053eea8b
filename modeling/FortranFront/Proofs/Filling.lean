import FortranFront.Analysis.Bodies
import FortranFront.Analysis.Parameters
import FortranFront.Proofs.Complaint
import FortranFront.Proofs.Skeleton

/-!
# `FortranFront.Proofs.Filling`: passes that fill in one part of each routine

Resolving bodies and linking parameters work alike. For each routine of a parsed
program they find the declared routine, compute a part of it from what is declared,
and put that part in. `Filling` is what such a pass is made of. Its laws say that
the computation reads nothing but the skeleton of the program, and that putting a
part in keeps the skeleton of the routine and replaces the part that was there. So
no step sees what the steps before it have written:

* `plan` is what a step would write and where. It is the same for programs of one
  skeleton (`plan_congr`).
* `run_cons_of_error` and `run_cons_of_ok`: all that a pass does at one routine.
* `outcome_run`: a pass succeeds or fails as its plans do, all of them made on the
  program it starts from.
* `program_run`: what a pass leaves behind is the program it starts from, with the
  plans before the first failure carried out in order.
* `skeleton_run`: a pass keeps the skeleton, however it ends.
* `result_run_of_skeleton`: the result of a pass, with its records, depends on the
  skeleton only.
* `run_invariant`: what every single write keeps is kept by a pass.

`bodies` and `parameters` are the two fillings, and `resolve_eq_run` and
`link_eq_run` say that the passes are theirs.
-/

set_option autoImplicit false

namespace FortranFront.Analysis

open Typed (Program)

/-- A part of a routine that is computed from the declarations and then put in.
Resolution (`bodies`) and linking (`parameters`) are the two fillings there are. What is
common to both passes is shown once of any filling. -/
structure Filling (α : Type) where
  /-- The part for a parsed routine whose names live in a scope. -/
  compute : SymbolTable → ScopeId → Parsed.Routine → Traced α
  /-- The routine with the part in its place. -/
  put : α → Typed.Routine → Typed.Routine
  /-- The part depends on the declarations only. -/
  compute_congr : ∀ {t t' : SymbolTable}, t.skeleton = t'.skeleton → compute t = compute t'
  /-- Nothing that was declared changes when a part is put in. -/
  skeleton_put : ∀ (x : α) (r : Typed.Routine), (put x r).skeleton = r.skeleton
  /-- A part that is put in replaces the one that was there. -/
  put_put : ∀ (x y : α) (r : Typed.Routine), put x (put y r) = put x r

namespace Filling

variable {α : Type} (F : Filling α) {p q : Program}

/-- Computes the part for a parsed routine and puts it into the routine of that name.
`resolveRoutine` and `linkRoutine` are such steps (`resolveRoutine_eq_step`,
`linkRoutine_eq_step`). -/
def step (p : Program) (r : Parsed.Routine) : Traced Program := do
  let (id, routine) ← Traced.lift (findRoutine p r)
  let x ← F.compute p.table routine.scope r
  return p.modifyRoutine id (F.put x)

/-- The routine that a step would write to, and the part it would put in. Unlike a step
it leaves the program alone and has no records, so plans for many routines can be made
on one program. -/
def plan (p : Program) (r : Parsed.Routine) : Except Diagnostic (SymbolId × α) :=
  (findRoutine p r).bind fun (id, routine) =>
    (F.compute p.table routine.scope r).outcome.map fun x => (id, x)

/-- The plans for a list of routines, up to the first that fails. These are what a pass
carries out, even though it makes each plan only after the writes before it. That this
comes to the same is `program_run`. -/
def writes (p : Program) : List Parsed.Routine → List (SymbolId × α)
  | [] => []
  | r :: rest =>
      match F.plan p r with
      | .error _ => []
      | .ok w => w :: writes p rest

/-- The program after plans are carried out one after the other. Later plans for the
same handle overwrite earlier ones. -/
def writeAll (p : Program) (ws : List (SymbolId × α)) : Program :=
  ws.foldl (fun p w => p.modifyRoutine w.1 (F.put w.2)) p

/-- A step succeeds or fails as its plan does, and then carries it out. The records are
left aside here, and `records_step_congr` is about them. `outcome_step_of_error` and
`outcome_step_of_ok` are its two cases. -/
theorem outcome_step (p : Program) (r : Parsed.Routine) :
    (F.step p r).outcome =
      (F.plan p r).map fun w => p.modifyRoutine w.1 (F.put w.2) := by
  unfold step plan
  rw [Traced.outcome_bind, Traced.outcome_lift]
  cases findRoutine p r with
  | error e => rfl
  | ok found =>
      -- What is left of the step is the computation with the write after it.
      show ((F.compute p.table found.2.scope r) >>= _).outcome = _
      rw [Traced.outcome_bind]
      cases h : (F.compute p.table found.2.scope r).outcome <;> simp [Except.bind, Except.map, h]

/-- Programs of one skeleton find the same routine for a parsed one, or none with the
same complaint. What was filled into the routines may differ, but not their scope, and
no more than the scope is used of a routine by a step. -/
theorem findRoutine_congr (h : p.skeleton = q.skeleton) (r : Parsed.Routine) :
    (∃ e, findRoutine p r = .error e ∧ findRoutine q r = .error e) ∨
      ∃ id a b, findRoutine p r = .ok (id, a) ∧ findRoutine q r = .ok (id, b) ∧
        a.scope = b.scope := by
  have hfind := Program.findRoutine?_congr h r.name
  unfold findRoutine
  cases hp : p.findRoutine? r.name with
  | none =>
      cases hq : q.findRoutine? r.name with
      | none => exact .inl ⟨_, rfl, rfl⟩
      | some _ => simp [hp, hq] at hfind
  | some found =>
      cases hq : q.findRoutine? r.name with
      | none => simp [hp, hq] at hfind
      | some found' =>
          rw [hp, hq, Option.map_some, Option.map_some, Option.some.injEq] at hfind
          obtain ⟨id, a⟩ := found
          obtain ⟨id', b⟩ := found'
          -- The handles are the same, and of the routines it is known that their skeletons are.
          obtain ⟨rfl, hroutine⟩ := Prod.mk.inj hfind
          have hscope : a.skeleton.scope = b.skeleton.scope := by rw [hroutine]
          exact .inr ⟨id, a, b, rfl, rfl, hscope⟩

/-- What a step would write depends on the declarations only. The routine is found alike
by `findRoutine_congr`, and the part is computed alike by the law `compute_congr`. This
is why the plans of a whole pass can be made on the program it starts from, although
each step changes it. -/
theorem plan_congr (h : p.skeleton = q.skeleton) (r : Parsed.Routine) :
    F.plan p r = F.plan q r := by
  unfold plan
  rw [F.compute_congr (Program.table_skeleton_congr h)]
  obtain ⟨e, hp, hq⟩ | ⟨id, a, b, hp, hq, hscope⟩ := findRoutine_congr h r
  · rw [hp, hq]
  · rw [hp, hq]
    show ((F.compute q.table a.scope r).outcome.map _) = _
    rw [hscope]
    rfl

/-- The records that a step leaves depend on the declarations only. They are those of
the computation, since neither the search for the routine nor the write leaves any. So
the second of two equal passes records the same as the first, though it runs on a
program that has been written to. -/
theorem records_step_congr (h : p.skeleton = q.skeleton) (r : Parsed.Routine) :
    (F.step p r).records = (F.step q r).records := by
  unfold step
  rw [F.compute_congr (Program.table_skeleton_congr h)]
  obtain ⟨e, hp, hq⟩ | ⟨id, a, b, hp, hq, hscope⟩ := findRoutine_congr h r
  · rw [hp, hq]
    rfl
  · rw [hp, hq, Traced.records_bind_of_ok _ (Traced.outcome_lift _),
      Traced.records_bind_of_ok _ (Traced.outcome_lift _)]
    -- The write at the end of a step leaves no record, so those of the computation are all.
    have hcompute : ∀ (scope : ScopeId) (p : Program),
        (F.compute q.table scope r >>= fun x => pure (p.modifyRoutine id (F.put x))).records =
          (F.compute q.table scope r).records := by
      intro scope p
      rw [← map_eq_pure_bind, Traced.records_map]
    simp only [hcompute, hscope, Traced.records_lift]

/-- Carrying out a plan keeps the skeleton. By this any plan made before the write is a
plan after it. It is the law `skeleton_put` of a filling, put into the table at one
handle. -/
theorem skeleton_write (p : Program) (id : SymbolId) (x : α) :
    (p.modifyRoutine id (F.put x)).skeleton = p.skeleton :=
  Program.skeleton_modifyRoutine (F.skeleton_put x) p id

/-- A step fails where there is no plan, with the complaint of the plan. -/
theorem outcome_step_of_error {r : Parsed.Routine} {e : Diagnostic} (h : F.plan q r = .error e) :
    (F.step q r).outcome = .error e := by
  rw [outcome_step, h]
  rfl

/-- A step carries out its plan. The plan was made on the program that the step starts
from. -/
theorem outcome_step_of_ok {r : Parsed.Routine} {w : SymbolId × α} (h : F.plan q r = .ok w) :
    (F.step q r).outcome = .ok (q.modifyRoutine w.1 (F.put w.2)) := by
  rw [outcome_step, h]
  rfl

/-- A pass stops at a routine that it has no plan for, and changes nothing there. The
routines after it do not matter. -/
theorem run_cons_of_error {r : Parsed.Routine} {rest : List Parsed.Routine} {e : Diagnostic}
    (h : F.plan q r = .error e) :
    (Pass.run F.step q (r :: rest)).program = q ∧
      (Pass.run F.step q (r :: rest)).result.outcome = .error e := by
  simp only [Pass.run, F.outcome_step_of_error h, and_self]

/-- A pass carries out the plan for the first routine and goes on with the others. With
`run_cons_of_error` this is all that is needed for an induction on the routines. -/
theorem run_cons_of_ok {r : Parsed.Routine} {rest : List Parsed.Routine} {w : SymbolId × α}
    (h : F.plan q r = .ok w) :
    (Pass.run F.step q (r :: rest)).program =
        (Pass.run F.step (q.modifyRoutine w.1 (F.put w.2)) rest).program ∧
      (Pass.run F.step q (r :: rest)).result.outcome =
        (Pass.run F.step (q.modifyRoutine w.1 (F.put w.2)) rest).result.outcome := by
  simp only [Pass.run, F.outcome_step_of_ok h, and_self]

/-- What is true of a program, and is kept whenever a plan is carried out, is true of
what a pass leaves behind. The pass may fail, since the writes before the failure are
kept. The hypothesis gets the plan, so it may use how the part was computed. -/
theorem run_invariant (Inv : Program → Prop)
    (write : ∀ q r w, Inv q → F.plan q r = .ok w → Inv (q.modifyRoutine w.1 (F.put w.2)))
    (start : Inv p) (rs : List Parsed.Routine) : Inv (Pass.run F.step p rs).program := by
  induction rs generalizing p with
  | nil => exact start
  | cons r rest ih =>
      cases hplan : F.plan p r with
      | error e =>
          rw [(F.run_cons_of_error hplan).1]
          exact start
      | ok w =>
          rw [(F.run_cons_of_ok hplan).1]
          exact ih (write p r w start hplan)

/-- A pass that steps through `q` carries out the plans made on `p`, as long as the two
have one skeleton. The induction is on the routines with `q` left free, because `q`
changes from step to step while `p` stays. -/
theorem program_run_of_skeleton (h : q.skeleton = p.skeleton) (rs : List Parsed.Routine) :
    (Pass.run F.step q rs).program = F.writeAll q (F.writes p rs) := by
  induction rs generalizing q with
  | nil => rfl
  | cons r rest ih =>
      -- The step is taken on `q`, but its plan may as well be made on `p`.
      have hplan := F.plan_congr h r
      unfold writes
      cases hp : F.plan p r with
      | error e =>
          rw [hp] at hplan
          exact (F.run_cons_of_error hplan).1
      | ok w =>
          rw [hp] at hplan
          rw [(F.run_cons_of_ok hplan).1]
          -- After the write the skeleton is still that of `p`.
          exact ih ((F.skeleton_write q w.1 w.2).trans h)

/-- What a pass leaves behind, whether it succeeds or fails. It is
`program_run_of_skeleton` for a pass that steps through `p` itself. Behind it a pass is
a list of writes, which can be compared, reordered and cut without going back to its
steps. -/
theorem program_run (p : Program) (rs : List Parsed.Routine) :
    (Pass.run F.step p rs).program = F.writeAll p (F.writes p rs) :=
  F.program_run_of_skeleton rfl rs

/-- A pass that steps through `q` ends as the plans made on `p` do. The induction is
that of `program_run_of_skeleton`: each step writes to the program and keeps its
skeleton, and a plan reads nothing but the skeleton. -/
theorem outcome_run_of_skeleton (h : q.skeleton = p.skeleton) (rs : List Parsed.Routine) :
    (Pass.run F.step q rs).result.outcome =
      rs.forM fun r => (F.plan p r).map fun _ => () := by
  induction rs generalizing q with
  | nil => rfl
  | cons r rest ih =>
      have hplan := F.plan_congr h r
      show _ = ((F.plan p r).map fun _ => ()).bind fun _ => rest.forM _
      cases hp : F.plan p r with
      | error e =>
          rw [hp] at hplan
          exact (F.run_cons_of_error hplan).2
      | ok w =>
          rw [hp] at hplan
          rw [(F.run_cons_of_ok hplan).2]
          -- The next step meets the skeleton of `p` again.
          exact ih ((F.skeleton_write q w.1 w.2).trans h)

/-- A pass succeeds or fails as its plans do, all made on the program it starts from. So
its outcome is that of a walk that only checks, and the lemmas on `forM` apply. What was
written on the way has no part in it. -/
theorem outcome_run (p : Program) (rs : List Parsed.Routine) :
    (Pass.run F.step p rs).result.outcome = rs.forM fun r => (F.plan p r).map fun _ => () :=
  F.outcome_run_of_skeleton rfl rs

/-- A pass over programs of one skeleton has one result, with the same records. Here
both programs change from step to step, so both are left free in the induction, and what
carries it is that they have one skeleton throughout. -/
theorem result_run_of_skeleton (h : q.skeleton = p.skeleton) (rs : List Parsed.Routine) :
    (Pass.run F.step q rs).result = (Pass.run F.step p rs).result := by
  induction rs generalizing p q with
  | nil => rfl
  | cons r rest ih =>
      have hplan := F.plan_congr h r
      have hrecords := F.records_step_congr h r
      cases hp : F.plan p r with
      | error e =>
          rw [hp] at hplan
          simp only [Pass.run, F.outcome_step_of_error hplan, F.outcome_step_of_error hp, hrecords]
      | ok w =>
          rw [hp] at hplan
          -- Both programs have been written to, and they still have one skeleton.
          have hrest := ih (((F.skeleton_write q w.1 w.2).trans h).trans
            (F.skeleton_write p w.1 w.2).symm)
          simp only [Pass.run, F.outcome_step_of_ok hplan, F.outcome_step_of_ok hp, hrecords,
            hrest]

/-- Carrying out plans keeps the skeleton, one after the other by `skeleton_write`. -/
theorem skeleton_writeAll (p : Program) (ws : List (SymbolId × α)) :
    (F.writeAll p ws).skeleton = p.skeleton := by
  induction ws generalizing p with
  | nil => rfl
  | cons w ws ih => exact (ih _).trans (F.skeleton_write p w.1 w.2)

/-- A pass keeps the skeleton of the program, however it ends. All answers to questions
about names are the same before and after it. What a pass leaves is a list of writes
(`program_run`), and `skeleton_writeAll` says that none of these touches a skeleton. -/
theorem skeleton_run (p : Program) (rs : List Parsed.Routine) :
    (Pass.run F.step p rs).program.skeleton = p.skeleton := by
  rw [F.program_run]
  exact F.skeleton_writeAll p _

end Filling

/-! ### Resolving depends on the declarations only -/

section Congr

variable {t t' : SymbolTable}

/-- Resolution of an expression asks the table for variables only, so it comes out the
same in tables of one skeleton. The induction is on the expression. So what was written
for other routines before makes no difference to a body. -/
theorem resolveExpr_congr (h : t.skeleton = t'.skeleton) (scope : ScopeId) (e : Parsed.Expr) :
    resolveExpr t scope e = resolveExpr t' scope e := by
  induction e with
  | name id location =>
      simp only [resolveExpr, resolveName, SymbolTable.findVariable?_congr h]
  | literal value location => rfl
  | binary op left right location ihl ihr => simp only [resolveExpr, ihl, ihr]

/-- The same holds of assignments, since both of their sides are expressions. -/
theorem resolveAssignment_congr (h : t.skeleton = t'.skeleton) (options : Options) :
    resolveAssignment options t = resolveAssignment options t' := by
  funext scope a
  simp only [resolveAssignment, resolveExpr_congr h]

/-- Linking asks for one variable, which is the same in tables of one skeleton. -/
theorem linkParameter_congr (h : t.skeleton = t'.skeleton) :
    linkParameter t = linkParameter t' := by
  funext scope a
  simp only [linkParameter, SymbolTable.findVariable?_congr h]

end Congr

/-! ### The two passes -/

/-- Resolution fills in bodies. The record of a routine is part of the computation, so
it is left where the body was computed and not where it was put in. -/
def bodies (options : Options) : Filling (List Typed.Assignment) where
  compute t scope r := do
    let body ← r.body.mapM (resolveAssignment options t scope)
    Traced.log (.resolvedBody body.length r.name)
    return body
  put body routine := { routine with body := body }
  compute_congr h := by
    funext scope r
    simp only [resolveAssignment_congr h]
  skeleton_put _ _ := rfl
  put_put _ _ _ := rfl

/-- Linking fills in parameters. They are computed from the dummy arguments of the
parsed routine, and its body is not read. -/
def parameters : Filling (List Typed.Expr) where
  compute t scope r := do
    let parameters ← Traced.lift (r.parameters.mapM (linkParameter t scope))
    Traced.log (.linkedParameters parameters.length r.name)
    return parameters
  put parameters routine := { routine with parameters := parameters }
  compute_congr h := by
    funext scope r
    simp only [linkParameter_congr h]
  skeleton_put _ _ := rfl
  put_put _ _ _ := rfl

/-- A body is computed by resolving its assignments in order, as far as the outcome
goes. -/
theorem outcome_compute_bodies (options : Options) (t : SymbolTable) (scope : ScopeId)
    (r : Parsed.Routine) :
    ((bodies options).compute t scope r).outcome =
      r.body.mapM fun a => (resolveAssignment options t scope a).outcome := by
  rw [← Traced.outcome_mapM]
  show ((r.body.mapM (resolveAssignment options t scope)) >>= _).outcome = _
  rw [Traced.outcome_bind]
  cases (r.body.mapM (resolveAssignment options t scope)).outcome <;> rfl

/-- Parameters are computed by linking the dummy arguments in order, as far as the
outcome goes. -/
theorem outcome_compute_parameters (t : SymbolTable) (scope : ScopeId) (r : Parsed.Routine) :
    (parameters.compute t scope r).outcome = r.parameters.mapM (linkParameter t scope) := by
  show (Traced.lift (r.parameters.mapM (linkParameter t scope)) >>= _).outcome = _
  rw [Traced.outcome_bind, Traced.outcome_lift]
  cases r.parameters.mapM (linkParameter t scope) <;> rfl

/-- A step of the resolution as it runs is the step of the filling. The filling has only
regrouped what is done before the write. -/
theorem resolveRoutine_eq_step (options : Options) :
    resolveRoutine options = (bodies options).step := by
  funext p r
  simp [resolveRoutine, Filling.step, bodies]

/-- A step of the linking as it runs is the step of the filling. -/
theorem linkRoutine_eq_step : linkRoutine = parameters.step := by
  funext p r
  simp [linkRoutine, Filling.step, parameters]

/-- The resolution as it runs is the pass of the filling, so all that is shown of
fillings holds of it. Other modules rewrite with this before they use any of it. -/
theorem resolve_eq_run (options : Options) (t : Parsed.Program) (p : Program) :
    resolve options t p = Pass.run (bodies options).step p t.routines := by
  rw [← resolveRoutine_eq_step]
  rfl

/-- The linking as it runs is the pass of the filling, so all that is shown of fillings
holds of it. -/
theorem link_eq_run (t : Parsed.Program) (p : Program) :
    link t p = Pass.run parameters.step p t.routines := by
  rw [← linkRoutine_eq_step]
  rfl

end FortranFront.Analysis
