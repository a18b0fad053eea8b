import FortranFront.Proofs.Erasure
import FortranFront.Proofs.LateFailure
import FortranFront.Proofs.WellFormed

/-!
# `FortranFront.Proofs.Strictness`: the check of assignments against its absence

The strict analysis does what the lenient one does, and checks each assignment once
it is resolved. So it can only stop earlier, at an assignment whose sides are of two
families.

* `outcome_resolve`: the resolution of a declared program is one walk over its
  statements, the items in order and the assignments of each.
* `resolveStatement_strict`: at one statement the strict walk is the lenient one
  with a check after it.
* `mapM_checked_of_ok` and `mapM_checked_of_error`: what the check makes of a walk that
  comes to its end, and of one that stops.
* `mapM_resolveStatement_of_analyze`: the statements of an analysed program are
  resolved to the assignments of its routines.
* `strict_against_lenient`: the outcomes of both analyses, in all cases.
-/

set_option autoImplicit false

namespace FortranFront

/-- Assignments between families are let through. This is what the analysis does by
default. -/
def Options.lenient : Options := ⟨false⟩

/-- Assignments between families are rejected. Nothing else is different. -/
def Options.strict : Options := ⟨true⟩

/-! ### Walks with a check after each step -/

section Walks

variable {α β : Type} {f : α → Except Diagnostic β} {c : β → Except Diagnostic Unit}

/-- The step of a walk with a check of its value. The value is handed on as it is if it
passes. -/
def checked (f : α → Except Diagnostic β) (c : β → Except Diagnostic Unit) (x : α) :
    Except Diagnostic β :=
  (f x).bind fun y => (c y).map fun _ => y

/-- Where a walk comes to its end, the walk with checks fails if one of its values does
not pass, with the complaint about the first of these. The checks may all be made after
the walk, as they change nothing. The induction is on the walk, element by element with
its value. -/
theorem mapM_checked_of_ok {xs : List α} {ys : List β} (h : xs.mapM f = .ok ys) :
    xs.mapM (checked f c) = (ys.forM c).map fun _ => ys := by
  have hall := mapM_eq_ok_iff.mp h
  clear h
  induction hall with
  | nil => rfl
  | @cons x y xs ys hy _ ih =>
      have hstep : checked f c x = (c y).map fun _ => y := by simp [checked, hy, Except.bind]
      rw [List.mapM_cons, hstep, ih]
      show _ = ((c y).bind fun _ => ys.forM c).map _
      cases c y with
      | error e => rfl
      | ok _ => cases ys.forM c <;> rfl

/-- Where a walk stops, the walk with checks stops there too, unless a value before does
not pass. The value at which it stops is never checked, since there is none. -/
theorem mapM_checked_of_error {earlier later : List α} {x : α} {ys : List β} {e : Diagnostic}
    (hearlier : earlier.mapM f = .ok ys) (hx : f x = .error e) :
    (earlier ++ x :: later).mapM (checked f c) = (ys.forM c).bind fun _ => .error e := by
  have hstep : checked f c x = .error e := by simp [checked, hx, Except.bind]
  rw [List.mapM_append, mapM_checked_of_ok hearlier, List.mapM_cons, hstep]
  cases ys.forM c <;> rfl

end Walks

namespace Analysis

open Typed (Program)

/-! ### Statements -/

/-- The assignments of a program in item and statement order, each with its routine.
Resolution takes them in this order, and the routine says in which scope. -/
def statements (t : Parsed.Program) : List (Parsed.Routine × Parsed.Assignment) :=
  t.routines.flatMap fun r => r.body.map fun a => (r, a)

/-- The assignments of an analysed program, in the same order. Their routines are not
needed to check them. -/
def assignments (p : Program) : List Typed.Assignment := p.routines.flatMap (·.body)

/-- What the resolution makes of a single statement of a declared program. The routine
is looked up anew for each, though the pass does it once for all statements of a
routine. -/
def resolveStatement (options : Options) (p : Program)
    (statement : Parsed.Routine × Parsed.Assignment) : Except Diagnostic Typed.Assignment :=
  (findRoutine p statement.1).bind fun found =>
    (resolveAssignment options p.table found.2.scope statement.2).outcome

variable {options : Options} {t : Parsed.Program} {p : Program}

/-- The statements of a routine are resolved in its scope, one after the other. This
ties the walk over all statements to the two loops of the pass. -/
theorem mapM_resolveStatement {r : Parsed.Routine} {id : SymbolId} {routine : Typed.Routine}
    (hfound : findRoutine p r = .ok (id, routine)) :
    (r.body.map fun a => (r, a)).mapM (resolveStatement options p) =
      ((bodies options).compute p.table routine.scope r).outcome := by
  rw [outcome_compute_bodies, List.mapM_map]
  congr 1
  funext a
  simp [resolveStatement, hfound, Except.bind]

/-- Resolution is a walk over the statements. No routine is missing, so it can stop only
at one of them. What has been written for the routines before is not read, which is why
the walk may stay in the declared program. -/
theorem outcome_resolve (h : DeclaredFrom t.routines p) :
    (resolve options t p).result.outcome =
      ((statements t).mapM (resolveStatement options p)).map fun _ => () := by
  rw [resolve_eq_run, Filling.outcome_run, statements]
  have hfind : ∀ r ∈ t.routines, ∃ found, findRoutine p r = .ok found :=
    fun r hr => h.findRoutine_afterSession [] hr
  generalize t.routines = rs at hfind
  -- The routines go by one at a time, while the program stays the declared one.
  induction rs with
  | nil => rfl
  | cons r rest ih =>
      obtain ⟨⟨id, routine⟩, hfound⟩ := hfind r List.mem_cons_self
      have hrest := ih fun r' hr' => hfind r' (List.mem_cons_of_mem r hr')
      have hplan : (bodies options).plan p r =
          ((bodies options).compute p.table routine.scope r).outcome.map fun x => (id, x) := by
        simp [Filling.plan, hfound, Except.bind]
      rw [List.flatMap_cons, List.mapM_append, mapM_resolveStatement hfound]
      show (((bodies options).plan p r).map fun _ => ()).bind (fun _ => rest.forM _) = _
      rw [hplan, hrest]
      cases ((bodies options).compute p.table routine.scope r).outcome with
      | error e => rfl
      | ok body =>
          cases (rest.flatMap fun r => r.body.map fun a => (r, a)).mapM
            (resolveStatement options p) <;> rfl

/-! ### The check -/

/-- Blames an assignment whose sides are of two families. This is the only check that
`Options.strict` adds. -/
def checkSides (a : Typed.Assignment) : Except Diagnostic Unit :=
  (Defect.assignmentMismatch a.target.type a.value.type).blameUnless a.location
    (a.target.type.SameFamily a.value.type)

/-- The first of some assignments whose sides are of two families, with its two types
and its place. It is read off typed assignments without a pass. -/
def firstMismatch? (as : List Typed.Assignment) : Option Diagnostic :=
  (as.find? fun a => ¬ a.target.type.SameFamily a.value.type).map fun a =>
    ⟨.assignmentMismatch a.target.type a.value.type, a.location⟩

/-- The first of some assignments is the first mismatch, unless its sides are of one
family. -/
theorem firstMismatch?_cons (a : Typed.Assignment) (rest : List Typed.Assignment) :
    firstMismatch? (a :: rest) =
      if a.target.type.SameFamily a.value.type then firstMismatch? rest
      else some ⟨.assignmentMismatch a.target.type a.value.type, a.location⟩ := by
  unfold firstMismatch?
  rw [List.find?_cons]
  by_cases hsame : a.target.type.SameFamily a.value.type <;> simp [hsame]

/-- Checking assignments in order fails at the first mismatch, and succeeds if there is
none. The induction is on the list, along with `firstMismatch?_cons`. So the search for
a mismatch and the walk that stops at it are the same. -/
theorem forM_checkSides (as : List Typed.Assignment) :
    as.forM checkSides = (firstMismatch? as).elim (.ok ()) .error := by
  induction as with
  | nil => rfl
  | cons a rest ih =>
      rw [firstMismatch?_cons]
      show ((checkSides a).bind fun _ => rest.forM checkSides) = _
      rw [ih, checkSides, Defect.blameUnless]
      -- Sides of one family pass, and the others are the mismatch.
      by_cases hsame : a.target.type.SameFamily a.value.type
      · rw [if_pos hsame, if_pos hsame]
        rfl
      · rw [if_neg hsame, if_neg hsame]
        rfl

/-- There is no mismatch if both sides of all assignments are of one family, and only
then. -/
theorem firstMismatch?_eq_none_iff {as : List Typed.Assignment} :
    firstMismatch? as = none ↔ ∀ a ∈ as, a.target.type.SameFamily a.value.type := by
  simp [firstMismatch?]

/-- The strict resolution of an assignment is the lenient one with the check after it.
Both sides are resolved first under either option, so a name that is not found or an
operation that clashes is blamed before the sides are compared. -/
theorem resolveAssignment_strict (table : SymbolTable) (scope : ScopeId)
    (a : Parsed.Assignment) :
    (resolveAssignment .strict table scope a).outcome =
      (resolveAssignment .lenient table scope a).outcome.bind fun a' =>
        (checkSides a').map fun _ => a' := by
  simp only [resolveAssignment, Traced.outcome_bind, Traced.outcome_lift, Traced.outcome_pure]
  -- A side that fails does so before the option is looked at.
  cases (resolveExpr table scope a.target).outcome with
  | error e => rfl
  | ok target =>
      cases (resolveExpr table scope a.value).outcome with
      | error e => rfl
      | ok value =>
          by_cases hsame : target.type.SameFamily value.type <;>
            simp [checkSides, Defect.blameUnless, Options.strict, Options.lenient, hsame,
              Except.bind, Except.map]

/-- So is the strict resolution of a statement, as the routine is found before the
option is read. With `outcome_resolve` both resolutions become walks over the same
statements, which `checked` tells apart. -/
theorem resolveStatement_strict (p : Program) :
    resolveStatement .strict p = checked (resolveStatement .lenient p) checkSides := by
  funext s
  simp only [resolveStatement, checked]
  cases findRoutine p s.1 with
  | error e => rfl
  | ok found => exact resolveAssignment_strict p.table found.2.scope s.2

/-! ### What both analyses leave -/

/-- The analysis of a program that is declared succeeds or fails as its resolution does.
Linking cannot fail there. -/
theorem outcome_analyze_of_declare (hp : (declare t).outcome = .ok p) :
    (analyze options t).outcome = (resolve options t p).result.outcome.map fun _ =>
      (link t (resolve options t p).program).program := by
  have hlink : (link t (resolve options t p).program).result.outcome = .ok () :=
    (declaredFrom_of_declare hp).link_afterSession [.resolve options t]
  rw [outcome_analyze, hp]
  simp only [Except.bind, hlink]
  cases (resolve options t p).result.outcome <;> rfl

/-- Where the strict resolution succeeds, the lenient one writes the same. Both are the
list of what they write, by `Filling.program_run`, and these lists are equal. For what
passes the check satisfies `ResolvesAssignment` under the lenient option too. -/
theorem program_resolve_lenient (h : (resolve .strict t p).result.outcome = .ok ()) :
    (resolve .lenient t p).program = (resolve .strict t p).program := by
  rw [resolve_eq_run] at h
  have hstrict := (bodies .strict).forall₂_writes ((bodies .strict).outcome_run_eq_ok_iff.mp h)
  -- A plan that passes the check is a plan without it.
  have hlenient := hstrict.imp fun r w (hw : (bodies .strict).plan p r = .ok w) => by
    obtain ⟨routine, hfound, hbody⟩ := plan_bodies_eq_ok_iff.mp hw
    have hall : List.Forall₂ (ResolvesAssignment .lenient p.table routine.scope) r.body w.2 :=
      hbody.imp fun a a' ha => ⟨ha.target, ha.value, nofun, ha.location⟩
    exact plan_bodies_eq_ok_iff.mpr ⟨routine, hfound, hall⟩
  rw [resolve_eq_run, resolve_eq_run, Filling.program_run, Filling.program_run,
    (bodies .lenient).writes_eq_of_forall₂ hlenient]
  rfl

/-- The statements of an analysed program were resolved to the assignments of its
routines. What `exists_filled` says of each routine is put in a row. The statements are
resolved in the declared program here, and the assignments are those of the finished
one. -/
theorem mapM_resolveStatement_of_analyze {u : Program} (hp : (declare t).outcome = .ok p)
    (h : (analyze options t).outcome = .ok u) :
    (statements t).mapM (resolveStatement options p) = .ok (assignments u) := by
  obtain ⟨p', hp', hresolve, hlink, rfl⟩ := analyze_eq_ok_iff.mp h
  obtain rfl : p = p' := Except.ok.inj (hp.symm.trans hp')
  have hdeclared := declaredFrom_of_declare hp
  have hitems : (link t (resolve options t p).program).program.items = p.items :=
    items_afterSession p [.resolve options t, .link t]
  -- Each routine is taken with the plan that filled it.
  have hbodies := hdeclared.forall₂_routines hitems
    (R := fun r routine => List.Forall₂ (fun s a => resolveStatement options p s = .ok a)
      (r.body.map fun a => (r, a)) routine.body) fun r hr id hid => by
    obtain ⟨first, scope, body, linked, hfound, hbody, -, hsymbol⟩ :=
      hdeclared.exists_filled hresolve hlink hr hid
    have hfind : findRoutine p r = .ok (id, declaredRoutine r first scope) :=
      blameNone_eq_ok_iff.mpr hfound
    have houtcome : ((bodies options).compute p.table scope r).outcome = .ok body := by
      rw [outcome_compute_bodies, mapM_eq_ok_iff]
      exact hbody.imp fun a a' ha => resolveAssignment_eq_ok_iff.mpr ha
    refine ⟨_, hsymbol, mapM_eq_ok_iff.mp ?_⟩
    rw [mapM_resolveStatement hfind]
    exact houtcome
  exact mapM_eq_ok_iff.mpr (List.rel_flatMap hbodies fun r routine hbody => hbody)

/-! ### Both analyses -/

/-- The strict resolution of a declared program is the lenient walk with the checks.
From here on the two analyses are compared by the lemmas about walks alone. -/
theorem outcome_resolve_strict (h : DeclaredFrom t.routines p) :
    (resolve .strict t p).result.outcome =
      ((statements t).mapM (checked (resolveStatement .lenient p) checkSides)).map fun _ => () := by
  rw [outcome_resolve h, resolveStatement_strict]

/-- A program that the lenient analysis accepts is accepted by the strict one too, or
rejected for the first mismatch among its assignments. In the first case the programs
are equal. -/
theorem strict_of_lenient_ok {u : Program} (hu : (analyze .lenient t).outcome = .ok u) :
    (analyze .strict t).outcome = (firstMismatch? (assignments u)).elim (.ok u) .error := by
  obtain ⟨p, hp, -, -, hlast⟩ := analyze_eq_ok_iff.mp hu
  have hwalk := mapM_resolveStatement_of_analyze hp hu
  have hresolve := outcome_resolve_strict (declaredFrom_of_declare hp)
  rw [mapM_checked_of_ok hwalk, forM_checkSides] at hresolve
  rw [outcome_analyze_of_declare hp, hresolve]
  cases hmismatch : firstMismatch? (assignments u) with
  | some e => rfl
  | none =>
      -- Nothing is found, and then both write the same.
      rw [hmismatch] at hresolve
      rw [← program_resolve_lenient hresolve, hlast]
      rfl

/-- What the strict analysis accepts, the lenient one accepts with the same result. Were
the lenient one to stop at a statement, the strict one would stop there or earlier, by
`mapM_checked_of_error`. And where both come to their end they write the same. -/
theorem lenient_of_strict_ok {u : Program} (hu : (analyze .strict t).outcome = .ok u) :
    (analyze .lenient t).outcome = .ok u := by
  obtain ⟨p, hp, hresolve, -, hlast⟩ := analyze_eq_ok_iff.mp hu
  have hdeclared := declaredFrom_of_declare hp
  -- A walk that fails without the checks fails with them.
  have hlenient : (resolve .lenient t p).result.outcome = .ok () := by
    rw [outcome_resolve hdeclared]
    cases hwalk : (statements t).mapM (resolveStatement .lenient p) with
    | ok as => rfl
    | error e =>
        obtain ⟨earlier, s, later, as, hsplit, hearlier, hs⟩ := exists_of_mapM_eq_error hwalk
        rw [outcome_resolve_strict hdeclared, hsplit, mapM_checked_of_error hearlier hs] at hresolve
        cases hforM : as.forM checkSides <;> rw [hforM] at hresolve <;> cases hresolve
  rw [outcome_analyze_of_declare hp, hlenient, program_resolve_lenient hresolve, hlast]
  rfl

/-- A declared program that the lenient analysis rejects has a statement to blame, and the strict
analysis rejects it as well, for the first mismatch before that statement or else for the same
reason. -/
theorem strict_of_lenient_error {e : Diagnostic} (hp : (declare t).outcome = .ok p)
    (he : (analyze .lenient t).outcome = .error e) :
    ∃ earlier s later typed, statements t = earlier ++ s :: later ∧
      earlier.mapM (resolveStatement .lenient p) = .ok typed ∧
      resolveStatement .lenient p s = .error e ∧
      (analyze .strict t).outcome = .error ((firstMismatch? typed).getD e) := by
  -- The declaration has succeeded, so the failure is one of the walk.
  have hdeclared := declaredFrom_of_declare hp
  rw [outcome_analyze_of_declare hp, outcome_resolve hdeclared] at he
  cases hwalk : (statements t).mapM (resolveStatement .lenient p) with
  | ok as => rw [hwalk] at he; cases he
  | error e' =>
      obtain rfl : e' = e := by rw [hwalk] at he; exact Except.error.inj he
      obtain ⟨earlier, s, later, typed, hsplit, hearlier, hs⟩ := exists_of_mapM_eq_error hwalk
      refine ⟨earlier, s, later, typed, hsplit, hearlier, hs, ?_⟩
      rw [outcome_analyze_of_declare hp, outcome_resolve_strict hdeclared, hsplit,
        mapM_checked_of_error hearlier hs, forM_checkSides]
      cases firstMismatch? typed <;> rfl

/-- The strict analysis only ever rejects more, and only for mismatches. Where the
lenient one succeeds, it comes to the same program or to the first mismatch there is in
it. Where it succeeds itself, so does the lenient one with the same program, and that
has no mismatch. Where the lenient one fails in the declaration, it fails likewise.
Where the lenient one fails at a statement, it fails at the first mismatch before that
statement, or else likewise.

Both resolutions are walks over the same statements, and the strict one is the lenient
one with `checkSides` after each step. All cases are read off that, through
`mapM_checked_of_ok` and `mapM_checked_of_error`. -/
theorem strict_against_lenient (t : Parsed.Program) :
    (∀ u, (analyze .lenient t).outcome = .ok u →
      (analyze .strict t).outcome = (firstMismatch? (assignments u)).elim (.ok u) .error) ∧
    (∀ u, (analyze .strict t).outcome = .ok u →
      (analyze .lenient t).outcome = .ok u ∧
        ∀ r ∈ u.routines, ∀ a ∈ r.body, a.target.type.SameFamily a.value.type) ∧
    ∀ e, (analyze .lenient t).outcome = .error e →
      ((declare t).outcome = .error e ∧ (analyze .strict t).outcome = .error e) ∨
      ∃ p earlier s later typed, (declare t).outcome = .ok p ∧
        statements t = earlier ++ s :: later ∧
        earlier.mapM (resolveStatement .lenient p) = .ok typed ∧
        resolveStatement .lenient p s = .error e ∧
        (analyze .strict t).outcome = .error ((firstMismatch? typed).getD e) := by
  refine ⟨fun u => strict_of_lenient_ok, fun u hu => ?_, fun e he => ?_⟩
  · have hlenient := lenient_of_strict_ok hu
    refine ⟨hlenient, fun r hr a ha => ?_⟩
    -- A mismatch would have been found by the strict analysis.
    have hnone : firstMismatch? (assignments u) = none := by
      have hstrict := strict_of_lenient_ok hlenient
      rw [hu] at hstrict
      cases hmismatch : firstMismatch? (assignments u) with
      | none => rfl
      | some e => rw [hmismatch] at hstrict; cases hstrict
    exact firstMismatch?_eq_none_iff.mp hnone a (List.mem_flatMap.mpr ⟨r, hr, ha⟩)
  · -- The declaration does not read the options.
    cases hp : (declare t).outcome with
    | error e' =>
        have hfail : ∀ options, (analyze options t).outcome = .error e' := fun options => by
          rw [outcome_analyze, hp]
          rfl
        obtain rfl : e' = e := Except.error.inj ((hfail .lenient).symm.trans he)
        exact .inl ⟨rfl, hfail .strict⟩
    | ok p =>
        obtain ⟨earlier, s, later, typed, hall⟩ := strict_of_lenient_error hp he
        exact .inr ⟨p, earlier, s, later, typed, rfl, hall⟩

/-- The function `half` gets a real value for its integer result. The lenient analysis
accepts that. -/
theorem strict_half :
    ∃ u, (analyze .lenient ⟨[half]⟩).outcome = .ok u ∧
      (analyze .strict ⟨[half]⟩).outcome =
        .error ⟨.assignmentMismatch (.integer 8) (.real 4), .onLine 3 3 20⟩ :=
  ⟨_, rfl, (strict_against_lenient ⟨[half]⟩).1 _ rfl⟩

end Analysis

end FortranFront
