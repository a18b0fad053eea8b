import FortranFront.Analysis
import FortranFront.Proofs.Declared
import FortranFront.Proofs.Filling

/-!
# `FortranFront.Proofs.Sessions`: programs after any series of passes

A declared program may be given to the two passes any number of times and in any
order, with parsed programs that it was not declared from, and a pass may fail
half way. A session is such a series of requests. `afterSession` folds them over a
program and goes on after a failure with what the failed pass has left.

* `skeleton_afterSession`: a session fills in parameters and bodies and changes
  nothing else.
* `DeclaredFrom.findRoutine_afterSession`: so a routine that was declared is found
  after any session.
* `outcome_analyze` and `analyze_eq_ok_iff`: the analysis as a declaration with two
  requests after it.
-/

set_option autoImplicit false

namespace FortranFront.Analysis

open Typed (Program)

/-- One pass that a program is asked to go through. The parsed program is any one, so a
request may name routines that were never declared, and then it fails on the way. -/
inductive Request where
  | resolve (options : Options) (t : Parsed.Program)
  | link (t : Parsed.Program)

namespace Request

/-- The pass that a request asks for, with its result and its records. -/
def pass (p : Program) : Request → Pass
  | .resolve options t => Analysis.resolve options t p
  | .link t => Analysis.link t p

/-- What a program becomes by a request, whether the pass comes to its end or not. The
result is dropped here. A statement about it names the pass. -/
def serve (p : Program) (request : Request) : Program := (request.pass p).program

/-- A request keeps the skeleton of a program. Both kinds of requests are passes of a
filling, and `Filling.skeleton_run` is about all of these. -/
theorem skeleton_serve (p : Program) (request : Request) :
    (request.serve p).skeleton = p.skeleton := by
  cases request with
  | resolve options t =>
      show (Analysis.resolve options t p).program.skeleton = _
      rw [resolve_eq_run]
      exact (bodies options).skeleton_run p t.routines
  | link t =>
      show (Analysis.link t p).program.skeleton = _
      rw [link_eq_run]
      exact parameters.skeleton_run p t.routines

end Request

/-- A program after a series of requests, one after the other. A failure does not end
the session, so the next request meets the program as the failed one has left it. -/
def afterSession (p : Program) (session : List Request) : Program :=
  session.foldl (fun p request => request.serve p) p

/-- A session keeps the skeleton of a program. Through this lemma everything that
depends on declarations only is the same after any session. The induction is on the
requests, and each of them is a pass, which keeps it by `Filling.skeleton_run`. -/
theorem skeleton_afterSession (p : Program) (session : List Request) :
    (afterSession p session).skeleton = p.skeleton := by
  induction session generalizing p with
  | nil => rfl
  | cons request rest ih =>
      have hrest : (afterSession (request.serve p) rest).skeleton = (request.serve p).skeleton :=
        ih (request.serve p)
      exact hrest.trans (request.skeleton_serve p)

/-- The routines of a program stay where they are in a session, since the items are part
of the skeleton. -/
theorem items_afterSession (p : Program) (session : List Request) :
    (afterSession p session).items = p.items :=
  Program.items_congr (skeleton_afterSession p session)

/-- A routine that was declared is still found after any session. The routine that is
found may have other parts by then, so only its existence is stated. -/
theorem DeclaredFrom.findRoutine_afterSession {before : List Parsed.Routine} {p : Program}
    {r : Parsed.Routine} (h : DeclaredFrom before p) (session : List Request)
    (hr : r ∈ before) : ∃ found, findRoutine (afterSession p session) r = .ok found := by
  obtain ⟨id, -, hid⟩ := h.exists_declaredAs hr
  obtain ⟨first, scope, hsymbol, -⟩ := hid.routine
  have hcongr := Program.findRoutine?_congr (skeleton_afterSession p session) r.name
  -- The declared program finds it, so the program after the session must as well.
  rw [hid.findRoutine? hsymbol] at hcongr
  obtain ⟨found, hlater, -⟩ := Option.map_eq_some_iff.mp hcongr
  exact ⟨found, blameNone_eq_ok_iff.mpr hlater⟩

/-! ### The analysis as a session -/

/-- A pass is completed if it succeeds. Then its value is the program that it has
left. -/
theorem outcome_completed (pass : Pass) :
    pass.completed.outcome = pass.result.outcome.map fun _ => pass.program := by
  unfold Pass.completed
  rw [Traced.outcome_bind]
  cases pass.result.outcome <;> rfl

/-- The outcome of the analysis is that of its three passes in a row, each at work on
what the pass before it has left. The records drop out, and with them the two entries at
the start and the end. -/
theorem outcome_analyze (options : Options) (t : Parsed.Program) :
    (analyze options t).outcome =
      (declare t).outcome.bind fun p => (resolve options t p).result.outcome.bind fun _ =>
        (link t (resolve options t p).program).result.outcome.map fun _ =>
          (link t (resolve options t p).program).program := by
  simp only [analyze, Traced.outcome_bind, Traced.outcome_log, Traced.outcome_pure,
    outcome_completed]
  show (declare t).outcome.bind _ = _
  -- Once the program is declared, what is left is the two passes in a row.
  congr 1
  funext p
  cases (resolve options t p).result.outcome with
  | error e => rfl
  | ok _ =>
      show ((link t (resolve options t p).program).result.outcome.map _).bind _ = _
      cases (link t (resolve options t p).program).result.outcome <;> rfl

/-- The analysis succeeds if its three passes do, and its result is what the last one
leaves. Most statements on analysed programs begin by taking the analysis apart with
this. -/
theorem analyze_eq_ok_iff {options : Options} {t : Parsed.Program} {q : Program} :
    (analyze options t).outcome = .ok q ↔
      ∃ p, (declare t).outcome = .ok p ∧ (resolve options t p).result.outcome = .ok () ∧
        (link t (resolve options t p).program).result.outcome = .ok () ∧
        (link t (resolve options t p).program).program = q := by
  rw [outcome_analyze]
  constructor
  · intro h
    obtain ⟨p, hp, hrest⟩ := bind_eq_ok_iff.mp h
    obtain ⟨_, hresolve, hlast⟩ := bind_eq_ok_iff.mp hrest
    cases hlink : (link t (resolve options t p).program).result.outcome with
    | error e => simp [hlink, Except.map] at hlast
    | ok _ =>
        rw [hlink] at hlast
        exact ⟨p, hp, hresolve, hlink, Except.ok.inj hlast⟩
  · -- Put together again, the three successes are one.
    rintro ⟨p, hp, hresolve, hlink, rfl⟩
    refine bind_eq_ok_iff.mpr ⟨p, hp, bind_eq_ok_iff.mpr ⟨(), hresolve, ?_⟩⟩
    rw [hlink]
    rfl

end FortranFront.Analysis
