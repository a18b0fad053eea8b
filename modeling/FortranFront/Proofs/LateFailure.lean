import FortranFront.Proofs.Resolves
import FortranFront.Proofs.Sessions

/-!
# `FortranFront.Proofs.LateFailure`: what cannot fail after declaration

The passes look things up that the declaration has checked in another way. The
check of dummy arguments reads the list of declarations, and linking looks into
the scope of the routine, where a function's own name was bound first and some
declarations were passed over. Both passes find a routine by its name, although
they have changed routines on the way.

* `DeclaredFrom.exists_plan_parameters`: what has passed the check can be linked.
* `DeclaredFrom.link_afterSession`: and it can be linked after any session.
* `link_and_lookup_succeed`: in a declared program linking never fails, nor does a
  lookup of a routine. So the analysis fails only where the declaration does or
  the resolution does.
-/

set_option autoImplicit false

namespace FortranFront.Analysis

open Typed (Program)

namespace DeclaredFrom

variable {before : List Parsed.Routine} {p : Program} {r : Parsed.Routine}

/-- Every dummy argument of a routine that was declared has a variable in the routine's
scope: it is declared there, and what is bound outside of the unit scope is a variable.
The variable need not come from the declaration that the check has seen, since for a
dummy argument named like its function the scope has the result. -/
theorem exists_plan_parameters (h : DeclaredFrom before p) (hr : r ∈ before) :
    ∃ w, parameters.plan p r = .ok w := by
  obtain ⟨id, -, hid⟩ := h.exists_declaredAs hr
  obtain ⟨first, scope, hsymbol, hscope, hlocals⟩ := hid.routine
  have hfound := hid.findRoutine? hsymbol
  have hlink : ∀ a ∈ r.parameters, ∃ e, linkParameter p.table scope a = .ok e := by
    intro a ha
    -- The check has seen a declaration of `a`, and that has put its name into the scope.
    have hbound := hlocals a.name (hid.parameters a ha)
    have hvariable := h.wellBound.isSome_findVariable? hscope hbound
    obtain ⟨⟨symbol, v⟩, hv⟩ := Option.isSome_iff_exists.mp hvariable
    exact ⟨_, linkParameter_eq_ok_iff.mpr ⟨symbol, v, hv, rfl⟩⟩
  obtain ⟨linked, hlinked⟩ := exists_mapM_eq_ok hlink
  exact ⟨(id, linked), plan_parameters_eq_ok_iff.mpr ⟨_, hfound, mapM_eq_ok_iff.mp hlinked⟩⟩

/-- The parsed program that a program was declared from can be linked in it after any
session. A session changes no declaration (`skeleton_afterSession`), and what a pass
would write depends on nothing else. -/
theorem link_afterSession {t : Parsed.Program} (h : DeclaredFrom t.routines p)
    (session : List Request) : (link t (afterSession p session)).result.outcome = .ok () := by
  rw [link_eq_run, Filling.outcome_run, forM_eq_ok_iff]
  intro r hr
  obtain ⟨w, hw⟩ := h.exists_plan_parameters hr
  rw [parameters.plan_congr (skeleton_afterSession p session), hw]
  rfl

/-- While a pass is at work on a program after some session, it finds every routine that
was declared. What it has done so far is one request more, so this is again a program
after a session. -/
theorem findRoutine_resolve (h : DeclaredFrom before p) (session : List Request)
    (options : Options) (done : Parsed.Program) (hr : r ∈ before) :
    ∃ found, findRoutine (resolve options done (afterSession p session)).program r = .ok found := by
  have hmore : afterSession p (session ++ [.resolve options done]) =
      (resolve options done (afterSession p session)).program :=
    List.foldl_append
  rw [← hmore]
  exact h.findRoutine_afterSession _ hr

end DeclaredFrom

/-- After a program is declared, its dummy arguments can be linked whatever passes it
has gone through and however these have ended, and the resolution of its bodies finds
the routine of each item when it comes to it. So the analysis ends with the failure of
the declaration, or else with that of the resolution, and succeeds if there is neither.

Linking looks up what the declaration has checked to be there. A session changes no
skeleton, and lookups depend on nothing else, so both can be shown of the declared
program. -/
theorem link_and_lookup_succeed (t : Parsed.Program) :
    (∀ p, (declare t).outcome = .ok p → ∀ session : List Request,
      (link t (afterSession p session)).result.outcome = .ok () ∧
      ∀ options done r rest, t.routines = done ++ r :: rest →
        ∃ found,
          findRoutine (resolve options ⟨done⟩ (afterSession p session)).program r = .ok found) ∧
    ∀ options, (analyze options t).outcome =
      (declare t).outcome.bind fun p => (resolve options t p).result.outcome.map fun _ =>
        (link t (resolve options t p).program).program := by
  constructor
  · intro p hp session
    have hdeclared := declaredFrom_of_declare hp
    refine ⟨hdeclared.link_afterSession session, fun options done r rest hsplit => ?_⟩
    have hr : r ∈ t.routines := by
      rw [hsplit]
      exact List.mem_append_right done List.mem_cons_self
    exact hdeclared.findRoutine_resolve session options ⟨done⟩ hr
  · intro options
    rw [outcome_analyze]
    cases hp : (declare t).outcome with
    | error e => rfl
    | ok p =>
        -- The program that is linked is the declared one after a session of one request.
        have hlink : (link t (resolve options t p).program).result.outcome = .ok () :=
          (declaredFrom_of_declare hp).link_afterSession [.resolve options t]
        simp only [Except.bind, hlink]
        cases (resolve options t p).result.outcome <;> rfl

/-- A function that declares its dummy argument twice, the second time as what it is
not. The second declaration is passed over, so nothing is wrong with it. -/
def twice : Parsed.Routine where
  form := .function
  name := "twice"
  parameters := [⟨"x", .onLine 1 16 16⟩]
  declarations := [⟨"x", "real", [], .onLine 2 3 11⟩, ⟨"x", "complex", [], .onLine 3 3 14⟩]
  body := [.of (.name "x" (.onLine 4 3 3)) (.binary .add (.name "x" (.onLine 4 7 7))
    (.name "x" (.onLine 4 11 11)) (.onLine 4 7 11))]
  binding := none
  location := .onLine 1 1 17

/-- The resolution of a program with one function more writes a body, fails at the function that
is not there, and leaves a program in which the dummy argument can be linked. -/
theorem link_after_failed_resolution :
    ∃ p, (declare ⟨[twice]⟩).outcome = .ok p ∧
      (resolve {} ⟨[twice, { twice with name := "thrice" }]⟩ p).result.outcome =
        .error ⟨.undefinedSymbol "thrice", .onLine 1 1 17⟩ ∧
      (link ⟨[twice]⟩ (afterSession p
        [.resolve {} ⟨[twice, { twice with name := "thrice" }]⟩])).result.outcome = .ok () :=
  ⟨_, rfl, rfl, ((link_and_lookup_succeed ⟨[twice]⟩).1 _ rfl
    [.resolve {} ⟨[twice, { twice with name := "thrice" }]⟩]).1⟩

end FortranFront.Analysis
