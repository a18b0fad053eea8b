import FortranFront.Proofs.LateFailure
import FortranFront.Proofs.Violations.Bodies
import FortranFront.Proofs.Violations.Declarations

/-!
# `FortranFront.Proofs.Agreement`: programs that are declared alike

The declarations of a routine matter to the analysis in two ways: through the
variables they give, and through the names they offer to the dummy arguments. So
they may be written in another way as long as both come out the same. `Agree`
compares the outcomes of two programs. Both have the same value, or both fail with
diagnostics that are related in some way, such as by equality.

* `Agree.bind` and `Agree.foldlM`: computations in a row agree if each part does.
* `agree_variableFor` and `agree_declareLocal`: two declarations of one name agree
  if their types do and the intents they give.
* `DeclaredAlike`: two routines differ in their declarations only, and these agree.
* `agree_analyze`: programs of such routines are analysed to the same program, or
  fail alike.
-/

set_option autoImplicit false

namespace FortranFront

/-- The defect quotes a word of a declaration the way it is spelled there. Two programs
that spell it differently are then told so in different words. -/
def Defect.QuotesSpelling : Defect → Prop
  | .unsupportedType _ => True
  | .invalidIntent _ => True
  | _ => False

/-- Two outcomes have the same value, or diagnostics that are related. With equality for
the relation the outcomes are equal, and with a weaker one the programs may be blamed in
other words. -/
inductive Agree {α : Type} (E : Diagnostic → Diagnostic → Prop) :
    Except Diagnostic α → Except Diagnostic α → Prop
  | ok (a : α) : Agree E (.ok a) (.ok a)
  | error {e e' : Diagnostic} (h : E e e') : Agree E (.error e) (.error e')

namespace Agree

variable {α β σ : Type} {E : Diagnostic → Diagnostic → Prop}

/-- Outcomes that agree up to equality are equal, on success as on failure. -/
theorem eq {x y : Except Diagnostic α} (h : Agree Eq x y) : x = y := by
  cases h with
  | ok a => rfl
  | error h => rw [h]

/-- Outcomes that are equal agree up to equality. -/
theorem of_eq {x y : Except Diagnostic α} (h : x = y) : Agree Eq x y := by
  subst h
  cases x with
  | ok a => exact .ok a
  | error e => exact .error rfl

/-- An outcome agrees with itself if the violations it may report are related to
themselves. The lists of `Proofs.Violations` name them all. -/
theorem of_complaint? {x : Except Diagnostic α} {v : List Diagnostic}
    (h : complaint? x = v.head?) (hv : ∀ e ∈ v, E e e) : Agree E x x := by
  cases x with
  | ok a => exact .ok a
  | error e => exact .error (hv e (List.mem_of_mem_head? h.symm))

/-- Computations in a row agree if the first parts do, and the second on every value
that the first can have. The second parts start from one value, since `Agree` has no two
values on success. -/
theorem bind {x y : Except Diagnostic α} {f g : α → Except Diagnostic β} (h : Agree E x y)
    (hrest : ∀ a, x = .ok a → Agree E (f a) (g a)) : Agree E (x.bind f) (y.bind g) := by
  cases h with
  | ok a => exact hrest a rfl
  | error h => exact .error h

/-- Lookups of one result agree if the complaints do that are made where there is
none. -/
theorem blameNone {d d' : Defect} {location location' : Location}
    (h : E ⟨d, location⟩ ⟨d', location'⟩) (o : Option α) :
    Agree E (d.blameNone location o) (d'.blameNone location' o) := by
  cases o with
  | none => exact .error h
  | some a => exact .ok a

/-- Walks over related lists agree if their steps agree on related elements. The lists
are equally long, so both walks end at the same time. -/
theorem foldlM {R : α → β → Prop} {f : σ → α → Except Diagnostic σ}
    {g : σ → β → Except Diagnostic σ} {xs : List α} {ys : List β} (h : List.Forall₂ R xs ys)
    (step : ∀ s x y, R x y → Agree E (f s x) (g s y)) (s : σ) :
    Agree E (xs.foldlM f s) (ys.foldlM g s) := by
  induction h generalizing s with
  | nil => exact .ok s
  | cons hxy _ ih =>
      rw [List.foldlM_cons, List.foldlM_cons]
      exact (step s _ _ hxy).bind fun s' _ => ih s'

end Agree

/-- A check depends on whether its condition holds, and not on how it is put. The
conditions need not be decided in the same way either. -/
theorem blameUnless_congr (d : Defect) (location : Location) {c c' : Prop} [Decidable c]
    [Decidable c'] (h : c ↔ c') : d.blameUnless location c = d.blameUnless location c' := by
  unfold Defect.blameUnless
  simp only [h]

namespace Analysis

open Typed (Program)

variable {E : Diagnostic → Diagnostic → Prop}

/-! ### Declarations -/

section Declarations

variable {d d' : Parsed.Declaration}

/-- Attributes agree if those that give an intent agree one by one. There may be any
others between them. -/
theorem agree_intentOf {as as' : List Parsed.Attribute}
    (h : List.Forall₂ (fun a a' => Agree E (intentNamed a) (intentNamed a'))
      (as.filter (IsIntent ·)) (as'.filter (IsIntent ·))) :
    Agree E (intentOf as) (intentOf as') :=
  Agree.foldlM h (fun _ _ _ ha => ha) _

/-- Declarations of one name at one place agree if their types and their intents do. The
type is read first, so a wrong type is blamed in both. How the two declarations differ
is left open here: `Proofs/Pruning` takes attributes away, and `Proofs/Spelling` changes
the letters of words. -/
theorem agree_variableFor (hname : d.name = d'.name) (hlocation : d.location = d'.location)
    (htype : Agree E (typeNamed d.typeName d.location) (typeNamed d'.typeName d'.location))
    (hintent : Agree E (intentOf d.attributes) (intentOf d'.attributes)) :
    Agree E (variableFor d) (variableFor d') := by
  refine htype.bind fun type _ => hintent.bind fun intent _ => ?_
  rw [hname, hlocation]
  exact .ok _

/-- Declarations that agree add the same variable, or are both passed over. Whether a
declaration is passed over is up to its name. So `agree_variableFor` is all that has to
be shown of a pair of declarations, and `Agree.foldlM` carries it over the list. -/
theorem agree_declareLocal (hname : d.name = d'.name)
    (h : Agree E (variableFor d) (variableFor d')) (known : List Typed.Variable) :
    Agree E (declareLocal known d).outcome (declareLocal known d').outcome := by
  unfold declareLocal
  rw [← hname]
  by_cases hknown : d.name ∈ known.map (·.name)
  · rw [if_pos hknown, if_pos hknown]
    exact .ok known
  · rw [if_neg hknown, if_neg hknown]
    simp only [Traced.outcome_bind, Traced.outcome_lift, Traced.outcome_log,
      Traced.outcome_pure]
    exact h.bind fun v _ => .ok _

end Declarations

/-! ### Routines -/

/-- A routine without its declarations. All passes after the declaration read no more of
a routine than this. -/
def bare (r : Parsed.Routine) : Parsed.Routine := { r with declarations := [] }

/-- Declarations that agree give agreeing variables, if all else in the routines is the
same. Both walks start from one result variable. -/
theorem agree_localsOf {r r' : Parsed.Routine} (hbare : bare r = bare r')
    (h : Agree E
      (r.declarations.foldlM (fun known d => (declareLocal known d).outcome)
        (resultVariable? r).toList)
      (r'.declarations.foldlM (fun known d => (declareLocal known d).outcome)
        (resultVariable? r).toList)) :
    Agree E (localsOf r).outcome (localsOf r').outcome := by
  have hresult : resultVariable? r = resultVariable? r' := (congrArg resultVariable? hbare :)
  rw [localsOf, localsOf, Traced.outcome_foldlM, Traced.outcome_foldlM, ← hresult]
  exact h

/-- The names that a routine declares are those of its declarations, passed over or
not. -/
theorem declares_iff {r : Parsed.Routine} {name : String} :
    r.Declares name ↔ name ∈ r.declarations.map (·.name) := by
  simp [Parsed.Routine.Declares]

/-- Two routines have all but their declarations in common, and as for these, their
variables agree and they declare the same of the dummy arguments. The lists of
declarations themselves may be of different lengths. -/
structure DeclaredAlike (E : Diagnostic → Diagnostic → Prop) (r r' : Parsed.Routine) : Prop where
  bare_eq : bare r = bare r'
  locals : Agree E (localsOf r).outcome (localsOf r').outcome
  declares : ∀ a ∈ r.parameters, (r.Declares a.name ↔ r'.Declares a.name)

namespace DeclaredAlike

variable {r r' : Parsed.Routine}

/-- The dummy arguments pass the check of both routines, or the same one is blamed. The
check asks only which of their names are declared, and `DeclaredAlike` says that this is
the same for each of them. -/
theorem checkParameters_eq (h : DeclaredAlike E r r') : checkParameters r = checkParameters r' := by
  have hparameters : r.parameters = r'.parameters :=
    (congrArg Parsed.Routine.parameters h.bare_eq :)
  have hdeclares := h.declares
  unfold checkParameters
  rw [← hparameters]
  generalize r.parameters = as at hdeclares
  -- The arguments are the same ones, and each is looked for among the names of either routine.
  induction as with
  | nil => rfl
  | cons a as ih =>
      have hfirst := blameUnless_congr (.undeclaredDummy a.name) a.location
        (hdeclares a List.mem_cons_self)
      have hrest := ih fun a' ha' => hdeclares a' (List.mem_cons_of_mem a ha')
      exact congrArg₂ Except.bind hfirst (funext fun _ => hrest)

/-- A dummy argument is blamed by its name, and no word of a declaration is quoted. So
such a complaint is related to itself. -/
theorem agree_checkParameters (h : DeclaredAlike E r r')
    (hE : ∀ e : Diagnostic, ¬ e.defect.QuotesSpelling → E e e) :
    Agree E (checkParameters r) (checkParameters r') := by
  rw [← h.checkParameters_eq]
  refine Agree.of_complaint? (complaint?_checkParameters r) fun e he => hE e ?_
  obtain ⟨a, -, ha⟩ := List.mem_flatMap.mp he
  unfold parameterViolations at ha
  split at ha
  · cases ha
  · obtain rfl := List.mem_singleton.mp ha
    exact not_false

/-- Routines that are declared alike are added to a program alike. Their name and their
place are the same, so a duplicate is blamed in both. -/
theorem agree_declareRoutine (h : DeclaredAlike E r r')
    (hE : ∀ e : Diagnostic, ¬ e.defect.QuotesSpelling → E e e) (p : Program) :
    Agree E (declareRoutine p r).outcome (declareRoutine p r').outcome := by
  have hname : r.name = r'.name := (congrArg Parsed.Routine.name h.bare_eq :)
  have hlocation : r.location = r'.location := (congrArg Parsed.Routine.location h.bare_eq :)
  have hroutine : declaredRoutine r = declaredRoutine r' := (congrArg declaredRoutine h.bare_eq :)
  rw [outcome_declareRoutine, outcome_declareRoutine, ← hroutine, ← hname, ← hlocation]
  refine h.locals.bind fun locals _ => (h.agree_checkParameters hE).bind fun _ _ => ?_
  exact .blameNone (hE ⟨.duplicateDefinition r.name, r.location⟩ not_false) _

end DeclaredAlike

/-! ### Programs -/

/-- A pass that reads the bare routines only does the same on these, as `Pass.run` hands
nothing else to its steps. -/
theorem run_map_bare {step : Program → Parsed.Routine → Traced Program}
    (h : ∀ p r, step p r = step p (bare r)) (p : Program) (rs : List Parsed.Routine) :
    Pass.run step p rs = Pass.run step p (rs.map bare) := by
  induction rs generalizing p with
  | nil => rfl
  | cons r rest ih => simp only [List.map_cons, Pass.run, ← h, ih]

variable {t t' : Parsed.Program}

/-- Bodies are resolved without a look at the declarations. What was declared is in the
table. -/
theorem resolve_eq_of_bare (h : t.routines.map bare = t'.routines.map bare) (options : Options)
    (p : Program) : resolve options t p = resolve options t' p := by
  have hstep : ∀ p r, resolveRoutine options p r = resolveRoutine options p (bare r) :=
    fun _ _ => rfl
  unfold resolve
  rw [run_map_bare hstep, h, ← run_map_bare hstep]

/-- Dummy arguments are linked without a look at the declarations. -/
theorem link_eq_of_bare (h : t.routines.map bare = t'.routines.map bare) (p : Program) :
    link t p = link t' p := by
  have hstep : ∀ p r, linkRoutine p r = linkRoutine p (bare r) := fun _ _ => rfl
  unfold link
  rw [run_map_bare hstep, h, ← run_map_bare hstep]

/-- What is wrong with a node is a name or the types of its operands. Names are compared
as they are spelled, so they are no spellings of one word, and types are not quoted as
they were written. -/
theorem not_quotesSpelling_nodeViolation? {table : SymbolTable} {scope : ScopeId}
    {e : Parsed.Expr} {d : Diagnostic} (h : nodeViolation? table scope e = some d) :
    ¬ d.defect.QuotesSpelling := by
  cases e with
  | name id location =>
      obtain ⟨-, hd⟩ := Option.ite_none_right_eq_some.mp h
      obtain rfl := Option.some.inj hd
      exact not_false
  | literal value location => cases h
  | binary op left right location =>
      obtain ⟨-, hd⟩ := Option.ite_none_right_eq_some.mp h
      obtain rfl := Option.some.inj hd
      exact not_false

/-- What is wrong with a body is never a word of a declaration. The cases are those of
`bodyViolations`: no routine, a node, or the two sides. With this a body that fails
fails with equal diagnostics in two programs that spell their declarations
differently. -/
theorem not_quotesSpelling_bodyViolations {options : Options} {p : Program} {r : Parsed.Routine}
    {d : Diagnostic} (h : d ∈ bodyViolations options p r) : ¬ d.defect.QuotesSpelling := by
  unfold bodyViolations at h
  split at h
  · obtain rfl := List.mem_singleton.mp h
    exact not_false
  · -- The routine is found, so the violation is one of an assignment.
    obtain ⟨a, -, ha⟩ := List.mem_flatMap.mp h
    unfold assignmentViolations at ha
    obtain hnode | hsides := List.mem_append.mp ha
    · obtain ⟨e, -, he⟩ := List.mem_filterMap.mp hnode
      exact not_quotesSpelling_nodeViolation? he
    · split at hsides
      · obtain rfl := List.mem_singleton.mp hsides
        exact not_false
      · cases hsides

/-- Programs whose routines are declared alike are analysed alike. After a declaration
that has succeeded both have the same program in hand, so all that is left to compare is
the declaration itself. The bodies are the same in both, as `bare` keeps them, and
linking cannot fail there (`link_afterSession`). -/
theorem agree_analyze (h : List.Forall₂ (DeclaredAlike E) t.routines t'.routines)
    (hE : ∀ e : Diagnostic, ¬ e.defect.QuotesSpelling → E e e) (options : Options) :
    Agree E (analyze options t).outcome (analyze options t').outcome := by
  have hbare : t.routines.map bare = t'.routines.map bare :=
    map_eq_map_of_forall₂ h fun _ _ halike => halike.bare_eq
  have hdeclare : Agree E (declare t).outcome (declare t').outcome := by
    rw [declare, declare, Traced.outcome_foldlM, Traced.outcome_foldlM]
    exact Agree.foldlM h (fun p _ _ halike => halike.agree_declareRoutine hE p) _
  -- After the declaration both analyses are at work on one program and do the same.
  rw [outcome_analyze, outcome_analyze]
  refine hdeclare.bind fun p hp => ?_
  rw [← resolve_eq_of_bare hbare, ← link_eq_of_bare hbare]
  -- A failed resolution reports a violation, and none of these quotes a spelling.
  have hresolve : complaint? (resolve options t p).result.outcome =
      (t.routines.flatMap (bodyViolations options p)).head? := by
    rw [resolve_eq_run, Filling.outcome_run]
    refine complaint?_forM fun r _ => ?_
    rw [complaint?_map]
    exact complaint?_plan_bodies options p r
  refine (Agree.of_complaint? hresolve fun e he => hE e ?_).bind fun _ _ => ?_
  · obtain ⟨r, -, hr⟩ := List.mem_flatMap.mp he
    exact not_quotesSpelling_bodyViolations hr
  · have hlink : (link t (resolve options t p).program).result.outcome = .ok () :=
      (declaredFrom_of_declare hp).link_afterSession [.resolve options t]
    rw [hlink]
    exact .ok _

end Analysis

end FortranFront
