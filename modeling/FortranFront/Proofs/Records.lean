import FortranFront.Proofs.Sessions

/-!
# `FortranFront.Proofs.Records`: what a successful computation records

Records are kept whatever a computation comes to, but only after success do they
tell the whole story. The statements here say what a computation that has succeeded
has recorded, in terms of its parts:

* `Traced.records_mapM_of_ok` and `Traced.filterMap_records_foldlM`: walks over
  lists. In a walk that carries a state, records of some sort are picked out that do
  not depend on the state.
* `Traced.records_checked_of_ok`: two parts and a check of their results.
* `records_declareLocal` and `records_declareRoutine`: a declaration that is read
  leaves one record, and so does one that is passed over.
* `Filling.records_run_of_ok`: a pass records what its steps do, all of them taken
  on the program it starts from.
* `records_analyze_of_ok`: the analysis records what its three passes do.
-/

set_option autoImplicit false

namespace FortranFront

/-! ### Walks -/

namespace Traced

variable {α β γ σ : Type}

/-- A walk that collects values records what its elements do, one after the other. If it
stopped at an element, those behind would have recorded nothing. The induction is on the
elements, as the walk is. -/
theorem records_mapM_of_ok {f : α → Traced β} {xs : List α} {ys : List β}
    (h : (xs.mapM f).outcome = .ok ys) : (xs.mapM f).records = xs.flatMap fun x => (f x).records := by
  induction xs generalizing ys with
  | nil => rfl
  | cons x xs ih =>
      rw [List.mapM_cons, outcome_bind] at h
      obtain ⟨y, hy, hrest⟩ := bind_eq_ok_iff.mp h
      rw [outcome_bind] at hrest
      obtain ⟨ys', hys, -⟩ := bind_eq_ok_iff.mp hrest
      rw [List.mapM_cons, records_bind_of_ok _ hy, records_bind_of_ok _ hys, ih hys,
        List.flatMap_cons, records_pure, List.append_nil]

/-- If what a step records of some sort depends on its element only, then a walk that
carries a state records this for its elements, one after the other. Other records may
depend on the state, and they are not picked out. -/
theorem filterMap_records_foldlM {f : σ → α → Traced σ} (pick : Record → Option γ)
    {picked : α → List γ}
    (hstep : ∀ s x s', (f s x).outcome = .ok s' → (f s x).records.filterMap pick = picked x)
    {xs : List α} {s s' : σ} (h : (xs.foldlM f s).outcome = .ok s') :
    (xs.foldlM f s).records.filterMap pick = xs.flatMap picked := by
  induction xs generalizing s with
  | nil => rfl
  | cons x xs ih =>
      rw [List.foldlM_cons, outcome_bind] at h
      obtain ⟨middle, hx, hrest⟩ := bind_eq_ok_iff.mp h
      rw [List.foldlM_cons, records_bind_of_ok _ hx, List.filterMap_append, hstep _ _ _ hx,
        ih hrest, List.flatMap_cons]

/-- Two parts in a row record what they do, and a check of their results adds nothing to
it. Operands and the sides of an assignment are resolved and then compared like this. -/
theorem records_checked_of_ok {x y : Traced α} {a b : α} {check : α → α → Except Diagnostic Unit}
    (make : α → α → β) (hx : x.outcome = .ok a) (hy : y.outcome = .ok b) (hab : check a b = .ok ()) :
    (do
      let a ← x
      let b ← y
      lift (check a b)
      return make a b).records = x.records ++ y.records := by
  have hcheck : (lift (check a b)).outcome = .ok () := hab
  rw [records_bind_of_ok _ hx, records_bind_of_ok _ hy, records_bind_of_ok _ hcheck, records_lift,
    records_pure, List.append_nil, List.append_nil]

end Traced

namespace Analysis

open Typed (Program Variable)

/-! ### Declarations -/

/-- A declaration is passed over or adds its variable, and the record says which. It
leaves one record in either case. The name in the record is that of the declaration,
which the variable has too. -/
theorem records_declareLocal {known known' : List Variable} {d : Parsed.Declaration}
    (h : (declareLocal known d).outcome = .ok known') :
    (known' = known ∧ (declareLocal known d).records = [.ignoredRedeclaration d.name]) ∨
      ∃ v, known' = known ++ [v] ∧
        (declareLocal known d).records = [.declaredVariable v.name v.type v.intent] := by
  rw [declareLocal_eq_ok_iff] at h
  unfold declareLocal
  -- A name that is known decides which of the two it is.
  by_cases hd : d.name ∈ known.map (·.name)
  · rw [if_pos hd] at h ⊢
    exact .inl ⟨h, rfl⟩
  · rw [if_neg hd] at h ⊢
    obtain ⟨v, hv, rfl⟩ := h
    refine .inr ⟨v, rfl, ?_⟩
    rw [hv]
    rfl

/-- A routine is declared with the records of its variables, behind one of its own. The
checks after that record nothing, so the name of the routine is in the first record
only. -/
theorem records_declareRoutine {p q : Program} {r : Parsed.Routine}
    (h : (declareRoutine p r).outcome = .ok q) :
    (declareRoutine p r).records = .declaring r.form r.name :: (localsOf r).records := by
  obtain ⟨locals, hlocals, hparameters, -⟩ := declareRoutine_eq_ok_iff.mp h
  have hchecked : (Traced.lift (checkParameters r)).outcome = .ok () := hparameters
  unfold declareRoutine
  rw [Traced.records_bind_of_ok _ (Traced.outcome_log _), Traced.records_bind_of_ok _ hlocals,
    Traced.records_bind_of_ok _ hchecked, Traced.records_lift, Traced.records_lift,
    List.append_nil, List.append_nil]
  rfl

/-! ### Passes -/

namespace Filling

variable {α : Type} (F : Filling α) {p q : Program}

/-- A step records what the computation of its part does. Neither the search for the
routine nor the write at the end leaves a record. -/
theorem records_step {r : Parsed.Routine} {id : SymbolId} {routine : Typed.Routine}
    (h : p.findRoutine? r.name = some (id, routine)) :
    (F.step p r).records = (F.compute p.table routine.scope r).records := by
  have hfound : (Traced.lift (findRoutine p r)).outcome = .ok (id, routine) :=
    blameNone_eq_ok_iff.mpr h
  unfold step
  rw [Traced.records_bind_of_ok _ hfound, Traced.records_lift, List.nil_append]
  -- The write at the end leaves no record.
  show (F.compute p.table routine.scope r >>= fun x => pure (p.modifyRoutine id (F.put x))).records
    = _
  rw [← map_eq_pure_bind, Traced.records_map]

/-- A pass that has come to its end has recorded what its steps record on the program
`p`, if it has gone through a program of the same skeleton. The program it is at changes
with each step, and its skeleton does not. The induction is on the routines, with
`run_cons_of_ok` and `run_cons_of_error` for its two cases. -/
theorem records_run_of_ok (h : q.skeleton = p.skeleton) {rs : List Parsed.Routine}
    (hok : (Pass.run F.step q rs).result.outcome = .ok ()) :
    (Pass.run F.step q rs).result.records = rs.flatMap fun r => (F.step p r).records := by
  induction rs generalizing q with
  | nil => rfl
  | cons r rest ih =>
      -- The pass came to its end, so its first step did not fail.
      obtain ⟨w, hw⟩ : ∃ w, F.plan q r = .ok w := by
        cases hplan : F.plan q r with
        | error e =>
            rw [(F.run_cons_of_error hplan).2] at hok
            cases hok
        | ok w => exact ⟨w, rfl⟩
      rw [(F.run_cons_of_ok hw).2] at hok
      have hrest := ih ((F.skeleton_write q w.1 w.2).trans h) hok
      rw [List.flatMap_cons, ← F.records_step_congr h, ← hrest]
      simp only [Pass.run, F.outcome_step_of_ok hw]

end Filling

/-- A body is computed with the records of its assignments, and one of its own at the
end. -/
theorem records_compute_bodies {options : Options} {table : SymbolTable} {scope : ScopeId}
    {r : Parsed.Routine} {body : List Typed.Assignment}
    (h : ((bodies options).compute table scope r).outcome = .ok body) :
    ((bodies options).compute table scope r).records =
      (r.body.flatMap fun a => (resolveAssignment options table scope a).records) ++
        [.resolvedBody body.length r.name] := by
  have hbody : (r.body.mapM (resolveAssignment options table scope)).outcome = .ok body := by
    rw [Traced.outcome_mapM, ← outcome_compute_bodies, h]
  show (r.body.mapM (resolveAssignment options table scope) >>= _).records = _
  rw [Traced.records_bind_of_ok _ hbody, Traced.records_mapM_of_ok hbody]
  rfl

/-- Parameters are computed with one record. A single argument is linked without one. -/
theorem records_compute_parameters {table : SymbolTable} {scope : ScopeId} {r : Parsed.Routine}
    {linked : List Typed.Expr} (h : (parameters.compute table scope r).outcome = .ok linked) :
    (parameters.compute table scope r).records = [.linkedParameters linked.length r.name] := by
  rw [outcome_compute_parameters] at h
  show (Traced.lift (r.parameters.mapM (linkParameter table scope)) >>= _).records = _
  rw [Traced.records_bind_of_ok _ h]
  rfl

/-! ### The analysis -/

/-- The records of an analysis that has succeeded are those of its three passes in
order, between one at the start and one at the end. The last one counts what is in the
finished table. -/
theorem records_analyze_of_ok {options : Options} {t : Parsed.Program} {p q : Program}
    (hdeclare : (declare t).outcome = .ok p)
    (hresolve : (resolve options t p).result.outcome = .ok ())
    (hlink : (link t (resolve options t p).program).result.outcome = .ok ())
    (hq : (link t (resolve options t p).program).program = q) :
    (analyze options t).records =
      .analyzing t.routines.length options :: ((declare t).records ++
        ((resolve options t p).result.records ++
          ((link t (resolve options t p).program).result.records ++
            [.finished q.table.scopeCount q.table.symbolCount]))) := by
  -- Each pass ends with its program in hand and adds no record by that.
  have hcompleted : ∀ {pass : Pass}, pass.result.outcome = .ok () →
      pass.completed.outcome = .ok pass.program ∧ pass.completed.records = pass.result.records := by
    intro pass hpass
    refine ⟨by rw [outcome_completed, hpass]; rfl, ?_⟩
    rw [Pass.completed, Traced.records_bind_of_ok _ hpass, Traced.records_pure, List.append_nil]
  obtain ⟨hresolved, hresolveRecords⟩ := hcompleted hresolve
  obtain ⟨hlinked, hlinkRecords⟩ := hcompleted hlink
  subst hq
  unfold analyze
  rw [Traced.records_bind_of_ok _ (Traced.outcome_log _), Traced.records_bind_of_ok _ hdeclare,
    Traced.records_bind_of_ok _ hresolved, Traced.records_bind_of_ok _ hlinked,
    hresolveRecords, hlinkRecords]
  rfl

end Analysis

end FortranFront
