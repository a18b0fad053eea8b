import FortranFront.Proofs.Relabelling
import FortranFront.Proofs.Sessions

/-!
# `FortranFront.Proofs.Naturality`: the analysis does not read labels

The analysis compares names with names and never looks into one. It copies
locations and literals and compares none. So it makes no difference whether a
program gets new labels before the analysis or its outcome gets them after it.

The proof follows the analysis function by function. Each lemma says that the
function has the relabelled outcome on the image of its arguments:

* `bind_relabel`, `mapM_relabel`, `forM_relabel`, `foldlM_relabel`: what is so of the
  parts of a computation is so of the whole.
* `outcome_localsOf_relabel`, `checkParameters_relabel`, `outcome_declareRoutine_relabel`:
  the declaration. Here the names are compared.
* `outcome_resolveExpr_relabel`, `outcome_resolveAssignment_relabel`,
  `linkParameter_relabel`: what the passes compute for a routine.
* `Filling.Relabels`: what a pass fills in is relabelled with what it is computed
  from. `Filling.Relabels.run` carries this through a pass, to the end or to the
  failure, with the program it leaves behind.
* `analyze_relabel`: the three passes together.
-/

set_option autoImplicit false

namespace FortranFront.Analysis

open Typed (Program Variable)

variable {ρ : Relabelling}

/-! ### Computations -/

section Computations

variable {α α' β β' σ σ' : Type}

/-- A lookup that blames its failure on the image blames the image of its failure. All
diagnostics about a missing name are made in this way. -/
theorem blameNone_relabel (ρ : Relabelling) (image : α → β) (d : Defect) (location : Location)
    (o : Option α) :
    (d.relabel ρ).blameNone (ρ.location location) (o.map image) =
      ρ.outcome image (d.blameNone location o) := by
  cases o <;> rfl

/-- A check that holds of the image where it held before blames the image of its
failure. The two conditions need not be the same proposition, as that on the image may
speak of new names. -/
theorem blameUnless_relabel (ρ : Relabelling) (d : Defect) (location : Location) {c c' : Prop}
    [Decidable c] [Decidable c'] (h : c' ↔ c) :
    (d.relabel ρ).blameUnless (ρ.location location) c' =
      ρ.outcome id (d.blameUnless location c) := by
  unfold Defect.blameUnless
  by_cases hc : c
  · rw [if_pos hc, if_pos (h.mpr hc)]
    rfl
  · rw [if_neg hc, if_neg fun hc' => hc (h.mp hc')]
    rfl

/-- Two computations in a row have the relabelled outcome if each of them has. The
second is asked for the image of every value, as the first one may give any. All
computations of the analysis are put together from steps in this way, so the lemmas on
walks and on passes rest on this one. -/
theorem bind_relabel {x : Except Diagnostic α} {x' : Except Diagnostic α'} {image : α → α'}
    {f : α → Except Diagnostic β} {f' : α' → Except Diagnostic β'} {imageLast : β → β'}
    (hx : x' = ρ.outcome image x) (hf : ∀ a, f' (image a) = ρ.outcome imageLast (f a)) :
    x'.bind f' = ρ.outcome imageLast (x.bind f) := by
  subst hx
  cases x with
  | error e => rfl
  | ok a => exact hf a

/-- The last value of a computation may be computed from the image. -/
theorem map_relabel {x : Except Diagnostic α} {x' : Except Diagnostic α'} {image : α → α'}
    {f : α → β} {f' : α' → β'} {imageLast : β → β'} (hx : x' = ρ.outcome image x)
    (hf : ∀ a, f' (image a) = imageLast (f a)) :
    x'.map f' = ρ.outcome imageLast (x.map f) := by
  subst hx
  cases x with
  | error e => rfl
  | ok a => exact congrArg Except.ok (hf a)

/-- A walk that collects values collects the images. It stops at the same element on
both sides. Bodies and parameters are walks of this kind. -/
theorem mapM_relabel {g : α → α'} {image : β → β'} {f : α → Except Diagnostic β}
    {f' : α' → Except Diagnostic β'} (h : ∀ a, f' (g a) = ρ.outcome image (f a))
    (xs : List α) : (xs.map g).mapM f' = ρ.outcome (List.map image) (xs.mapM f) := by
  induction xs with
  | nil => rfl
  | cons x xs ih =>
      rw [List.map_cons, List.mapM_cons, List.mapM_cons]
      exact bind_relabel (h x) fun y => bind_relabel ih fun ys => rfl

/-- A walk that only checks ends with the image of its failure, at the same element. -/
theorem forM_relabel {g : α → α'} {f : α → Except Diagnostic Unit}
    {f' : α' → Except Diagnostic Unit} (h : ∀ a, f' (g a) = ρ.outcome id (f a))
    (xs : List α) : (xs.map g).forM f' = ρ.outcome id (xs.forM f) := by
  induction xs with
  | nil => rfl
  | cons x xs ih => exact bind_relabel (h x) fun _ => ih

/-- A walk that carries a state carries the image of it. Both loops of the declaration
are such walks. The step is asked for on every state and not only on those that are
reached, so no invariant has to be carried along. -/
theorem foldlM_relabel {g : α → α'} {image : σ → σ'} {f : σ → α → Except Diagnostic σ}
    {f' : σ' → α' → Except Diagnostic σ'}
    (h : ∀ s a, f' (image s) (g a) = ρ.outcome image (f s a)) (xs : List α) (s : σ) :
    (xs.map g).foldlM f' (image s) = ρ.outcome image (xs.foldlM f s) := by
  induction xs generalizing s with
  | nil => rfl
  | cons x xs ih =>
      rw [List.map_cons, List.foldlM_cons, List.foldlM_cons]
      exact bind_relabel (h s x) fun s' => ih s'

end Computations

/-! ### Declarations -/

section Declarations

variable (ρ)

/-- The name of a type is read as before, and an unknown one is blamed at the new
location. -/
theorem typeNamed_relabel (typeName : String) (location : Location) :
    typeNamed typeName (ρ.location location) = ρ.outcome id (typeNamed typeName location) := by
  unfold typeNamed
  cases ScalarType.ofName? typeName <;> rfl

/-- The intent of an attribute is read as before, and an unknown one is blamed at the
new location. -/
theorem intentNamed_relabel (a : Parsed.Attribute) :
    intentNamed (a.relabel ρ) = ρ.outcome id (intentNamed a) := by
  unfold intentNamed Parsed.Attribute.relabel
  cases a.args with
  | nil => rfl
  | cons specifier rest =>
      show (Defect.invalidIntent specifier).blameNone (ρ.location a.location)
        (Intent.ofSpecifier? specifier) = ρ.outcome id ((Defect.invalidIntent specifier).blameNone
          a.location (Intent.ofSpecifier? specifier))
      cases Intent.ofSpecifier? specifier <;> rfl

/-- The attributes of a declaration give the same intent, or the image of the same
diagnostic. -/
theorem intentOf_relabel (attributes : List Parsed.Attribute) :
    intentOf (attributes.map (·.relabel ρ)) = ρ.outcome id (intentOf attributes) := by
  -- Whether an attribute gives an intent is not changed by its location.
  have hfilter : (attributes.map (·.relabel ρ)).filter (IsIntent ·) =
      (attributes.filter (IsIntent ·)).map (·.relabel ρ) := List.filter_map
  have hstart : (.unspecified : Intent) = id .unspecified := rfl
  unfold intentOf
  rw [hfilter, hstart]
  refine foldlM_relabel (fun _ a => ?_) _ _
  exact intentNamed_relabel ρ a

/-- A declaration of the new name declares the variable of the new name. Its type and
its intent are read from words, which stay. -/
theorem variableFor_relabel (d : Parsed.Declaration) :
    variableFor (d.relabel ρ) = ρ.outcome (·.relabel ρ) (variableFor d) := by
  refine bind_relabel (typeNamed_relabel ρ d.typeName d.location) fun type => ?_
  exact bind_relabel (intentOf_relabel ρ d.attributes) fun intent => rfl

/-- New names are among new names as the old ones are among the old. No other name
became the one in question. -/
theorem mem_map_name_relabel {known : List Variable} {name : String} :
    ρ.name name ∈ (known.map (·.relabel ρ)).map (·.name) ↔ name ∈ known.map (·.name) := by
  have hnames : (known.map (·.relabel ρ)).map (·.name) = (known.map (·.name)).map ρ.name := by
    rw [List.map_map, List.map_map]
    rfl
  rw [hnames, List.mem_map_of_injective ρ.name_injective]

/-- A declaration adds its image to the image of the variables so far, or is left out on
both sides because its name is taken. That the name is taken on both sides or on neither
is `mem_map_name_relabel`. -/
theorem outcome_declareLocal_relabel (known : List Variable) (d : Parsed.Declaration) :
    (declareLocal (known.map (·.relabel ρ)) (d.relabel ρ)).outcome =
      ρ.outcome (List.map (·.relabel ρ)) (declareLocal known d).outcome := by
  have hknown : (d.relabel ρ).name ∈ (known.map (·.relabel ρ)).map (·.name) ↔
      d.name ∈ known.map (·.name) := mem_map_name_relabel ρ
  unfold declareLocal
  by_cases h : d.name ∈ known.map (·.name)
  · rw [if_pos h, if_pos (hknown.mpr h)]
    rfl
  · rw [if_neg h, if_neg fun h' => h (hknown.mp h')]
    simp only [Traced.outcome_bind, Traced.outcome_lift, Traced.outcome_log,
      Traced.outcome_pure]
    refine bind_relabel (variableFor_relabel ρ d) fun v => ?_
    -- The variable is added at the end of the one list and its image at the end of the other.
    show Except.ok (known.map (·.relabel ρ) ++ [v.relabel ρ]) = ρ.outcome _ (.ok (known ++ [v]))
    rw [Relabelling.outcome, List.map_append]
    rfl

/-- The result variable of a function bears the new name of the function, and a
subroutine has none. -/
theorem resultVariable?_relabel (r : Parsed.Routine) :
    resultVariable? (r.relabel ρ) = (resultVariable? r).map (·.relabel ρ) := by
  unfold resultVariable? Parsed.Routine.relabel
  cases r.form <;> rfl

/-- The variables of the image of a routine are the images of its variables. The walk
starts with the result of a function on both sides, and `outcome_declareLocal_relabel`
is its step. -/
theorem outcome_localsOf_relabel (r : Parsed.Routine) :
    (localsOf (r.relabel ρ)).outcome =
      ρ.outcome (List.map (·.relabel ρ)) (localsOf r).outcome := by
  have hresult : (resultVariable? (r.relabel ρ)).toList =
      (resultVariable? r).toList.map (·.relabel ρ) := by
    rw [resultVariable?_relabel]
    cases resultVariable? r <;> rfl
  unfold localsOf
  rw [Traced.outcome_foldlM, Traced.outcome_foldlM, hresult]
  refine foldlM_relabel (fun known d => ?_) r.declarations _
  exact outcome_declareLocal_relabel ρ known d

/-- The image of a dummy argument is declared by the image of the routine if the
argument was declared. -/
theorem checkParameters_relabel (r : Parsed.Routine) :
    checkParameters (r.relabel ρ) = ρ.outcome id (checkParameters r) := by
  have hdeclares : ∀ name, (r.relabel ρ).Declares (ρ.name name) ↔ r.Declares name := by
    intro name
    simp [Parsed.Routine.Declares, Parsed.Routine.relabel, Parsed.Declaration.relabel,
      ρ.name_injective.eq_iff]
  refine forM_relabel (fun a => ?_) r.parameters
  exact blameUnless_relabel ρ (.undeclaredDummy a.name) a.location (hdeclares a.name)

/-- The image of a routine is declared as the image of what the routine is declared as,
under the same handles. -/
theorem declaredRoutine_relabel (r : Parsed.Routine) (first : SymbolId) (scope : ScopeId) :
    declaredRoutine (r.relabel ρ) first scope = (declaredRoutine r first scope).relabel ρ := by
  unfold declaredRoutine kindOf Typed.Routine.relabel
  rw [resultVariable?_relabel]
  cases resultVariable? r <;> rfl

/-- The scope of a routine and its variables may be added before or after the table gets
its new labels. -/
theorem localTable_relabel (p : Program) (locals : List Variable) :
    localTable (p.relabel ρ) (locals.map (·.relabel ρ)) = (localTable p locals).relabel ρ := by
  have hsymbols : (locals.map (·.relabel ρ)).map Typed.Symbol.var =
      (locals.map Typed.Symbol.var).map (·.relabel ρ) := by
    rw [List.map_map, List.map_map]
    rfl
  show ((p.table.relabel ρ).openScope .routine).declareAll (p.table.relabel ρ).nextScope _ = _
  rw [SymbolTable.openScope_relabel, SymbolTable.nextScope_relabel, hsymbols]
  exact SymbolTable.declareAll_relabel ρ _ _ _

/-- Declaring the image of a routine gives the image of the program, or the image of the
diagnostic. The three steps of it are taken one after another: the variables, the check
of the dummy arguments, and the routine itself, which may find its name taken. -/
theorem outcome_declareRoutine_relabel (p : Program) (r : Parsed.Routine) :
    (declareRoutine (p.relabel ρ) (r.relabel ρ)).outcome =
      ρ.outcome (·.relabel ρ) (declareRoutine p r).outcome := by
  rw [outcome_declareRoutine, outcome_declareRoutine]
  refine bind_relabel (outcome_localsOf_relabel ρ r) fun locals =>
    bind_relabel (checkParameters_relabel ρ r) fun _ => ?_
  -- The last step needs the image of the table that the variables are in.
  have hadd : Program.addRoutine? ⟨localTable (p.relabel ρ) (locals.map (·.relabel ρ)), p.items⟩
      (declaredRoutine (r.relabel ρ) (p.table.relabel ρ).nextSymbol
        (p.table.relabel ρ).nextScope) =
      (Program.addRoutine? ⟨localTable p locals, p.items⟩
        (declaredRoutine r p.table.nextSymbol p.table.nextScope)).map (·.relabel ρ) := by
    rw [localTable_relabel, SymbolTable.nextSymbol_relabel, SymbolTable.nextScope_relabel,
      declaredRoutine_relabel]
    exact Program.addRoutine?_relabel ρ ⟨localTable p locals, p.items⟩ _
  refine (congrArg _ hadd).trans ?_
  exact blameNone_relabel ρ _ (.duplicateDefinition r.name) r.location _

/-- Declaring the image of a program gives the image of the declared program, or of the
diagnostic. The walk starts from the empty program, which is its own image. -/
theorem outcome_declare_relabel (t : Parsed.Program) :
    (declare (t.relabel ρ)).outcome = ρ.outcome (·.relabel ρ) (declare t).outcome := by
  have hfold : (t.relabel ρ).routines.foldlM (fun p r => (declareRoutine p r).outcome)
      (Program.empty.relabel ρ) =
      ρ.outcome (·.relabel ρ)
        (t.routines.foldlM (fun p r => (declareRoutine p r).outcome) Program.empty) := by
    refine foldlM_relabel (fun p r => ?_) t.routines Program.empty
    exact outcome_declareRoutine_relabel ρ p r
  rw [Program.relabel_empty] at hfold
  rw [declare, declare, Traced.outcome_foldlM, Traced.outcome_foldlM, hfold]

end Declarations

/-! ### Parts of routines -/

section Parts

variable (ρ) (t : SymbolTable) (scope : ScopeId)

/-- The image of an expression is resolved to the image of what the expression is
resolved to. The induction is on the parsed tree. A name is looked up, where
`findVariable?_relabel` is used, and an operation compares types, which have no
labels. -/
theorem outcome_resolveExpr_relabel (e : Parsed.Expr) :
    (resolveExpr (t.relabel ρ) scope (e.relabel ρ)).outcome =
      ρ.outcome (·.relabel ρ) (resolveExpr t scope e).outcome := by
  induction e with
  | name id location =>
      simp only [Parsed.Expr.relabel, resolveExpr, resolveName, Traced.outcome_bind,
        Traced.outcome_lift, Traced.outcome_log, Traced.outcome_pure,
        SymbolTable.findVariable?_relabel]
      exact bind_relabel (blameNone_relabel ρ _ (.undefinedSymbol id) location _) fun _ => rfl
  | literal value location => rfl
  | binary op left right location ihl ihr =>
      simp only [Parsed.Expr.relabel, resolveExpr, Traced.outcome_bind, Traced.outcome_lift,
        Traced.outcome_pure]
      refine bind_relabel ihl fun l => bind_relabel ihr fun r => ?_
      -- The check compares types, and these are no labels.
      rw [Typed.Expr.type_relabel, Typed.Expr.type_relabel]
      exact bind_relabel (blameUnless_relabel ρ (.operandMismatch l.type r.type) location Iff.rfl)
        fun _ => rfl

/-- The image of an assignment is resolved to the image of what the assignment is
resolved to, under either option. -/
theorem outcome_resolveAssignment_relabel (options : Options) (a : Parsed.Assignment) :
    (resolveAssignment options (t.relabel ρ) scope (a.relabel ρ)).outcome =
      ρ.outcome (·.relabel ρ) (resolveAssignment options t scope a).outcome := by
  simp only [resolveAssignment, Traced.outcome_bind, Traced.outcome_lift, Traced.outcome_pure]
  refine bind_relabel (outcome_resolveExpr_relabel ρ t scope a.target) fun target =>
    bind_relabel (outcome_resolveExpr_relabel ρ t scope a.value) fun value => ?_
  rw [Typed.Expr.type_relabel, Typed.Expr.type_relabel]
  exact bind_relabel
    (blameUnless_relabel ρ (.assignmentMismatch target.type value.type) a.location Iff.rfl)
    fun _ => rfl

/-- The image of a dummy argument is linked to the image of what the argument is linked
to. -/
theorem linkParameter_relabel (a : Parsed.Parameter) :
    linkParameter (t.relabel ρ) scope (a.relabel ρ) =
      ρ.outcome (·.relabel ρ) (linkParameter t scope a) := by
  unfold linkParameter
  have hfind := t.findVariable?_relabel ρ scope a.name
  have hblame := blameNone_relabel ρ (Prod.map id (·.relabel ρ)) (.undeclaredDummy a.name)
    a.location (t.findVariable? scope a.name)
  rw [← hfind] at hblame
  exact bind_relabel hblame fun _ => rfl

end Parts

/-! ### Passes -/

/-- What a filling computes from an image is the image of what it computes, and can be
put into the routine before or after that gets its new labels. `Filling.Relabels.run`
needs no more than this of a pass. -/
structure Filling.Relabels {α : Type} (F : Filling α) (ρ : Relabelling) (image : α → α) :
    Prop where
  compute : ∀ (t : SymbolTable) (scope : ScopeId) (r : Parsed.Routine),
    (F.compute (t.relabel ρ) scope (r.relabel ρ)).outcome =
      ρ.outcome image (F.compute t scope r).outcome
  put : ∀ (x : α) (routine : Typed.Routine),
    F.put (image x) (routine.relabel ρ) = (F.put x routine).relabel ρ

/-- Resolution computes bodies, whose images are made assignment by assignment. -/
theorem bodies_relabels (options : Options) (ρ : Relabelling) :
    (bodies options).Relabels ρ (List.map (·.relabel ρ)) where
  compute t scope r := by
    rw [outcome_compute_bodies, outcome_compute_bodies]
    refine mapM_relabel (fun a => ?_) r.body
    exact outcome_resolveAssignment_relabel ρ t scope options a
  put _ _ := rfl

/-- Linking computes lists of parameters, whose images are made one by one. -/
theorem parameters_relabels (ρ : Relabelling) :
    parameters.Relabels ρ (List.map (·.relabel ρ)) where
  compute t scope r := by
    rw [outcome_compute_parameters, outcome_compute_parameters]
    refine mapM_relabel (fun a => ?_) r.parameters
    exact linkParameter_relabel ρ t scope a
  put _ _ := rfl

/-- One pass is the image of another, in what it leaves behind and in what it reports. A
pass that failed has left a program too, so the two are compared apart. -/
structure Pass.IsImage (ρ : Relabelling) (pass pass' : Pass) : Prop where
  program : pass'.program = pass.program.relabel ρ
  outcome : pass'.result.outcome = ρ.outcome id pass.result.outcome

namespace Filling.Relabels

variable {α : Type} {F : Filling α} {image : α → α}

/-- The same handle is planned to be written to, with the image of the part. The routine
that is found says in which scope it is computed. -/
theorem plan (h : F.Relabels ρ image) (p : Program) (r : Parsed.Routine) :
    F.plan (p.relabel ρ) (r.relabel ρ) = ρ.outcome (Prod.map id image) (F.plan p r) := by
  have hfind := p.findRoutine?_relabel ρ r.name
  have hblame := blameNone_relabel ρ (Prod.map id (·.relabel ρ)) (.undefinedSymbol r.name)
    r.location (p.findRoutine? r.name)
  rw [← hfind] at hblame
  exact bind_relabel hblame fun (_, routine) =>
    map_relabel (h.compute p.table routine.scope r) fun _ => rfl

/-- One step of a pass leads from the image to the image of what it led to. -/
theorem outcome_step (h : F.Relabels ρ image) (p : Program) (r : Parsed.Routine) :
    (F.step (p.relabel ρ) (r.relabel ρ)).outcome =
      ρ.outcome (·.relabel ρ) (F.step p r).outcome := by
  rw [F.outcome_step, F.outcome_step]
  exact map_relabel (h.plan p r) fun w => p.modifyRoutine_relabel ρ w.1 (h.put w.2)

/-- A pass over the image of a program leaves the image of what it leaves of the
program, and stops at the image of what it stops at. The induction is on the routines
for every program, as each step hands another one on. -/
theorem run (h : F.Relabels ρ image) (p : Program) (rs : List Parsed.Routine) :
    Pass.IsImage ρ (Pass.run F.step p rs)
      (Pass.run F.step (p.relabel ρ) (rs.map (·.relabel ρ))) := by
  induction rs generalizing p with
  | nil => exact ⟨rfl, rfl⟩
  | cons r rest ih =>
      have hstep := h.outcome_step p r
      rw [List.map_cons]
      -- What the first step comes to decides how the image goes on.
      cases hp : (F.step p r).outcome with
      | error e =>
          rw [hp, Relabelling.outcome] at hstep
          simp only [Pass.run, hp, hstep]
          exact ⟨rfl, rfl⟩
      | ok changed =>
          rw [hp, Relabelling.outcome] at hstep
          simp only [Pass.run, hp, hstep]
          exact ⟨(ih changed).program, (ih changed).outcome⟩

end Filling.Relabels

/-! ### The analysis -/

/-- The analysis is natural in names, locations and literals. Whatever new names are
given to those of a program, as long as they stay different, and whatever its locations
and literals are changed to: the outcome is the old one with the new labels. Where there
was a typed program, there is one with the same scopes, handles, types, intents and
shapes, and where there was a diagnostic, there is the same one about the new name at
the new location.

The passes are gone through in order with `bind_relabel`. A pass that fails has changed
the program already, so `Pass.IsImage` follows the program along with the outcome. -/
theorem analyze_relabel (ρ : Relabelling) (options : Options) (t : Parsed.Program) :
    (analyze options (t.relabel ρ)).outcome =
      ρ.outcome (·.relabel ρ) (analyze options t).outcome := by
  rw [outcome_analyze, outcome_analyze]
  refine bind_relabel (outcome_declare_relabel ρ t) fun p => ?_
  -- Linking starts from the program that resolution leaves, so this has to be an image too.
  have hresolve : Pass.IsImage ρ (resolve options t p)
      (resolve options (t.relabel ρ) (p.relabel ρ)) := by
    rw [resolve_eq_run, resolve_eq_run]
    exact (bodies_relabels options ρ).run p t.routines
  have hlink : Pass.IsImage ρ (link t (resolve options t p).program)
      (link (t.relabel ρ) (resolve options (t.relabel ρ) (p.relabel ρ)).program) := by
    rw [link_eq_run, link_eq_run, hresolve.program]
    exact (parameters_relabels ρ).run _ t.routines
  refine bind_relabel hresolve.outcome fun _ => ?_
  exact map_relabel hlink.outcome fun _ => hlink.program

/-- Names with a mark at their end, and one location and one literal for all. Only the
names stay apart, and only they have to. -/
def marked : Relabelling where
  name n := n ++ "_"
  location _ := .nowhere
  literal _ := 0
  name_injective _ _ h := (String.append_left_inj "_").mp h

/-- A subroutine that sets a name it does not declare. It is rejected for that name. -/
def undeclaredTarget : Parsed.Program where
  routines := [
    { form := .subroutine
      name := "s"
      parameters := []
      declarations := []
      body := [.of (.name "y" (.onLine 2 3 3)) (.literal 1 (.onLine 2 7 7))]
      binding := none
      location := .onLine 1 1 12 }]

/-- A function that doubles its argument. It is accepted, and its product is a
`real`. -/
def doubling : Parsed.Program where
  routines := [
    { form := .function
      name := "double"
      parameters := [⟨"x", .onLine 1 17 17⟩]
      declarations := [⟨"x", "integer", [⟨"intent", ["in"], .onLine 2 12 21⟩], .onLine 2 3 26⟩]
      body := [.of (.name "double" (.onLine 3 3 8))
        (.binary .mul (.literal 2 (.onLine 3 12 12)) (.name "x" (.onLine 3 14 14))
          (.onLine 3 12 14))]
      binding := none
      location := .onLine 1 1 18 }]

/-- A name that is bound to nothing is still blamed, with its mark. And a program that is accepted
is accepted with the marks as well. What comes of it has them in its names, and the same handles,
scopes and types as before. -/
theorem analyze_marked :
    (analyze {} (undeclaredTarget.relabel marked)).outcome =
        .error ⟨.undefinedSymbol "y_", .nowhere⟩ ∧
      ∃ q u, (analyze {} doubling).outcome = .ok q ∧
        (analyze {} (doubling.relabel marked)).outcome = .ok u ∧ u = q.relabel marked ∧
        u.routines.map (·.name) = ["double_"] ∧
        u.routines.map (·.parameters) = [[.var ⟨1⟩ ⟨1⟩ (.integer 4) .nowhere]] ∧
        u.routines.map (·.body) =
          [[⟨.var ⟨0⟩ ⟨1⟩ (.integer 8) .nowhere,
            .binary .mul (.literal 0 (.integer 8) .nowhere) (.var ⟨1⟩ ⟨1⟩ (.integer 4) .nowhere)
              (.real 4) .nowhere, .nowhere⟩]] := by
  constructor
  · exact (analyze_relabel marked {} undeclaredTarget).trans rfl
  · have hok : (analyze {} doubling).outcome = .ok _ := rfl
    have hmarked : (analyze {} (doubling.relabel marked)).outcome = .ok _ := rfl
    have himage := analyze_relabel marked {} doubling
    rw [hok, hmarked] at himage
    exact ⟨_, _, hok, hmarked, Except.ok.inj himage, rfl, rfl, rfl⟩

end FortranFront.Analysis
