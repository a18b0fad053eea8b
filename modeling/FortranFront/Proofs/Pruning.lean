import FortranFront.Proofs.Agreement
import FortranFront.Proofs.Letters

/-!
# `FortranFront.Proofs.Pruning`: what the analysis passes over

Some of what a program says makes no difference to it: declarations of a name that
was declared before, declarations of a function's own name, attributes that do not
give an intent, and all arguments of an attribute but the first. It does not
matter what is wrong with them either. `RoutinePruned` relates a routine to what is
left of it when any of these are taken out.

Dummy arguments are checked against all declarations, those that are passed over
among them. So a declaration of the function's own name may go only if no dummy
argument has that name.

* `agree_variableFor_of_pruned`: what is left of a declaration declares the same
  variable.
* `DeclarationsPruned.agree_declareLocals`: a declaration that is taken out is one
  whose name is known where it stands, so the variables stay the same, and so does
  the first violation.
* `DeclarationsPruned.mem_names`: no dummy argument loses its last declaration.
* `analyze_pruned`: a program is analysed like any program that it is pruned to.
-/

set_option autoImplicit false

namespace FortranFront.Analysis

open Parsed (Attribute Declaration)
open Typed (Variable)

/-! ### What may be taken out -/

/-- An attribute without some of its arguments. The first one stays, since an intent is
read from it. -/
structure AttributeCut (a a' : Attribute) : Prop where
  name : a.name = a'.name
  first : a.args.head? = a'.args.head?
  others : a'.args.tail.Sublist a.args.tail
  location : a.location = a'.location

/-- Attributes without some of those that are not called `intent`, in whatever case.
Those that stay may be cut, and they stay in their order. -/
inductive AttributesPruned : List Attribute → List Attribute → Prop
  | nil : AttributesPruned [] []
  | foreign {a : Attribute} {as as' : List Attribute} (h : ¬ SameLetters a.name "intent")
      (rest : AttributesPruned as as') : AttributesPruned (a :: as) as'
  | keep {a a' : Attribute} {as as' : List Attribute} (h : AttributeCut a a')
      (rest : AttributesPruned as as') : AttributesPruned (a :: as) (a' :: as')

/-- What is left of a declaration that stays. Its name, its type and its place are as
they were. -/
structure DeclarationPruned (d d' : Declaration) : Prop where
  name : d.name = d'.name
  typeName : d.typeName = d'.typeName
  attributes : AttributesPruned d.attributes d'.attributes
  location : d.location = d'.location

/-- Declarations of a routine, after those of some earlier names, without some that
declare one of these names again, and some of the function's own name. The earlier names
include those of declarations that were taken out, so a name is known from its first
declaration on. -/
inductive DeclarationsPruned (r : Parsed.Routine) :
    List String → List Declaration → List Declaration → Prop
  | nil {earlier : List String} : DeclarationsPruned r earlier [] []
  | redeclaration {earlier : List String} {d : Declaration} {ds ds' : List Declaration}
      (h : d.name ∈ earlier) (rest : DeclarationsPruned r (earlier ++ [d.name]) ds ds') :
      DeclarationsPruned r earlier (d :: ds) ds'
  | result {earlier : List String} {d : Declaration} {ds ds' : List Declaration}
      (h : r.form = .function ∧ d.name = r.name) (hdummy : ∀ a ∈ r.parameters, a.name ≠ r.name)
      (rest : DeclarationsPruned r (earlier ++ [d.name]) ds ds') :
      DeclarationsPruned r earlier (d :: ds) ds'
  | keep {earlier : List String} {d d' : Declaration} {ds ds' : List Declaration}
      (h : DeclarationPruned d d') (rest : DeclarationsPruned r (earlier ++ [d.name]) ds ds') :
      DeclarationsPruned r earlier (d :: ds) (d' :: ds')

/-- A routine and what is left of it. Nothing but its declarations may differ. -/
structure RoutinePruned (r r' : Parsed.Routine) : Prop where
  bare_eq : bare r = bare r'
  declarations : DeclarationsPruned r [] r.declarations r'.declarations

/-! ### One declaration -/

/-- Only the first argument of an attribute is read, so a cut attribute names the same
intent or has the same violation. Either both have no argument at all or both have the
same first one. -/
theorem intentNamed_eq_of_cut {a a' : Attribute} (h : AttributeCut a a') :
    intentNamed a = intentNamed a' := by
  have hfirst := h.first
  unfold intentNamed
  rw [h.location]
  -- What is left of no arguments is no arguments.
  cases ha : a.args with
  | nil =>
      cases ha' : a'.args with
      | nil => rfl
      | cons s rest => rw [ha, ha'] at hfirst; cases hfirst
  | cons s rest =>
      cases ha' : a'.args with
      | nil => rw [ha, ha'] at hfirst; cases hfirst
      | cons s' rest' =>
          rw [ha, ha'] at hfirst
          obtain rfl : s = s' := Option.some.inj hfirst
          rfl

/-- Of pruned attributes those that give an intent are all there, in their order and
each at most cut. The induction is on the pruning. An attribute that is left out has
another name, by `isIntent_iff`, so the filter would leave it out as well. -/
theorem AttributesPruned.intents {as as' : List Attribute} (h : AttributesPruned as as') :
    List.Forall₂ AttributeCut (as.filter (IsIntent ·)) (as'.filter (IsIntent ·)) := by
  induction h with
  | nil => exact .nil
  | foreign hforeign _ ih =>
      rw [List.filter_cons_of_neg (by simpa [isIntent_iff] using hforeign)]
      exact ih
  | @keep a a' as as' hcut _ ih =>
      -- A cut attribute keeps its name, so it gives an intent as before.
      have hsame : IsIntent a ↔ IsIntent a' := by rw [isIntent_iff, isIntent_iff, hcut.name]
      by_cases hintent : IsIntent a
      · rw [List.filter_cons_of_pos (by simpa using hintent),
          List.filter_cons_of_pos (by simpa using hsame.mp hintent)]
        exact .cons hcut ih
      · rw [List.filter_cons_of_neg (by simpa using hintent),
          List.filter_cons_of_neg (by simpa using mt hsame.mpr hintent)]
        exact ih

/-- What is left of a declaration declares the same variable, or has the same violation.
This puts the two lemmas above together. Both sides are equal computations here, so
`Agree` is taken at equality. -/
theorem agree_variableFor_of_pruned {d d' : Declaration} (h : DeclarationPruned d d') :
    Agree Eq (variableFor d) (variableFor d') := by
  refine agree_variableFor h.name h.location (.of_eq ?_) (agree_intentOf ?_)
  · rw [h.typeName, h.location]
  · exact h.attributes.intents.imp fun _ _ hcut => .of_eq (intentNamed_eq_of_cut hcut)

/-! ### One routine -/

/-- A step over a declaration makes its name known, and forgets none that was known.
This holds whether the declaration adds a variable or is passed over, and it is what
keeps the hypothesis of `agree_declareLocals` up as the walk goes on. -/
theorem known_of_declareLocal {known known' : List Variable} {d : Declaration}
    {taken : List String} (h : (declareLocal known d).outcome = .ok known')
    (hknown : ∀ n ∈ taken, n ∈ known.map (·.name)) :
    ∀ n ∈ taken ++ [d.name], n ∈ known'.map (·.name) := by
  intro n hn
  rw [declareLocal_eq_ok_iff] at h
  -- The name was known before, or it is the one declared now.
  obtain hold | hnew := List.mem_append.mp hn
  · have hmem := hknown n hold
    split at h
    · rwa [h]
    · obtain ⟨v, -, rfl⟩ := h
      rw [List.map_append]
      exact List.mem_append_left _ hmem
  · obtain rfl := List.mem_singleton.mp hnew
    split at h
    · rwa [h]
    · obtain ⟨v, hv, rfl⟩ := h
      rw [List.map_append, List.mem_append]
      exact .inr (by simp [name_of_variableFor hv])

namespace DeclarationsPruned

variable {r : Parsed.Routine} {earlier : List String} {ds ds' : List Declaration}

/-- Where the own name of a function and all earlier names are known, pruned
declarations make the same variables known, or are stopped by the same violation. The
induction is on the pruning, and what is known grows with the earlier names. -/
theorem agree_declareLocals (h : DeclarationsPruned r earlier ds ds') {known : List Variable}
    (hknown : ∀ n ∈ ownNames r ++ earlier, n ∈ known.map (·.name)) :
    Agree Eq (ds.foldlM (fun known d => (declareLocal known d).outcome) known)
      (ds'.foldlM (fun known d => (declareLocal known d).outcome) known) := by
  -- A declaration whose name is known is passed over, whether it is taken out or not.
  have hskip : ∀ {known : List Variable} {d : Declaration}, d.name ∈ known.map (·.name) →
      (declareLocal known d).outcome = .ok known := fun hd =>
    declareLocal_eq_ok_iff.mpr (by rw [if_pos hd])
  induction h generalizing known with
  | nil => exact .ok known
  | @redeclaration earlier d ds ds' hmem _ ih =>
      have hpassed := hskip (hknown d.name (List.mem_append_right _ hmem))
      rw [List.foldlM_cons, hpassed]
      refine ih ?_
      rw [← List.append_assoc]
      exact known_of_declareLocal hpassed hknown
  | @result earlier d ds ds' hresult _ _ ih =>
      have hpassed := hskip (hknown d.name (List.mem_append_left _ (mem_ownNames.mpr hresult)))
      rw [List.foldlM_cons, hpassed]
      refine ih ?_
      rw [← List.append_assoc]
      exact known_of_declareLocal hpassed hknown
  | @keep earlier d d' ds ds' hkeep _ ih =>
      rw [List.foldlM_cons, List.foldlM_cons]
      -- A declaration that stays is read on both sides.
      have hstep := agree_declareLocal hkeep.name (agree_variableFor_of_pruned hkeep) known
      refine hstep.bind fun known' hknown' => ih ?_
      rw [← List.append_assoc]
      exact known_of_declareLocal hknown' hknown

/-- The name of a dummy argument that is declared is among those left. A redeclaration
leaves the first declaration behind, and a declaration of the function's own name is no
declaration of a dummy argument. -/
theorem mem_names (h : DeclarationsPruned r earlier ds ds') {a : Parsed.Parameter}
    (ha : a ∈ r.parameters) :
    a.name ∈ earlier ∨ a.name ∈ ds.map (·.name) ↔
      a.name ∈ earlier ∨ a.name ∈ ds'.map (·.name) := by
  induction h with
  | nil => rfl
  | @redeclaration earlier d ds ds' hmem _ ih =>
      -- The name that is taken out is one of the earlier names.
      have hname : a.name = d.name → a.name ∈ earlier := fun heq => heq ▸ hmem
      simp only [List.map_cons, List.mem_cons, List.mem_append, List.not_mem_nil] at ih ⊢
      grind
  | @result earlier d ds ds' hresult hdummy _ ih =>
      -- No dummy argument has the name that is taken out.
      have hname : a.name ≠ d.name := hresult.2 ▸ hdummy a ha
      simp only [List.map_cons, List.mem_cons, List.mem_append, List.not_mem_nil] at ih ⊢
      grind
  | @keep earlier d d' ds ds' hkeep _ ih =>
      have hname : a.name = d.name ↔ a.name = d'.name := by rw [hkeep.name]
      simp only [List.map_cons, List.mem_cons, List.mem_append, List.not_mem_nil] at ih ⊢
      grind

end DeclarationsPruned

/-- A routine is declared like what is left of it. From here on the lemmas on agreement
carry the comparison through the analysis. -/
theorem RoutinePruned.declaredAlike {r r' : Parsed.Routine} (h : RoutinePruned r r') :
    DeclaredAlike Eq r r' where
  bare_eq := h.bare_eq
  locals := by
    -- Before the first declaration just the function's own name is known.
    refine agree_localsOf h.bare_eq (h.declarations.agree_declareLocals fun n hn => ?_)
    rwa [names_resultVariable?, ← List.append_nil (ownNames r)]
  declares := by
    intro a ha
    simpa [declares_iff] using h.declarations.mem_names ha

/-- A program is analysed like any program that it is pruned to. Both are accepted with
the same typed program, or rejected for the same violation. Any number of things may be
taken out at once, in any of the routines.

Each routine is declared like what is left of it, and `agree_analyze` carries this
through the analysis. The relation between diagnostics is equality here, since what is
left is spelled and placed as it was. -/
theorem analyze_pruned {t t' : Parsed.Program}
    (h : List.Forall₂ RoutinePruned t.routines t'.routines) (options : Options) :
    (analyze options t).outcome = (analyze options t').outcome :=
  (agree_analyze (h.imp fun _ _ hpruned => hpruned.declaredAlike) (fun _ _ => rfl) options).eq

/-- A function that says more than is read. It declares its own name and repeats that of
its dummy argument, both as what there is not, and gives attributes and arguments of no
use. -/
def wordy : Parsed.Routine where
  form := .function
  name := "area"
  parameters := [⟨"x", .onLine 1 15 15⟩]
  declarations :=
    [⟨"x", "REAL", [⟨"value", [], .onLine 2 9 13⟩, ⟨"Intent", ["IN", "often"], .onLine 2 16 32⟩],
        .onLine 2 3 37⟩,
      ⟨"area", "complex", [], .onLine 3 3 17⟩,
      ⟨"x", "string", [⟨"intent", [], .onLine 4 11 18⟩], .onLine 4 3 23⟩,
      ⟨"n", "integer", [], .onLine 5 3 14⟩]
  body := [.of (.name "area" (.onLine 6 3 6)) (.binary .mul (.name "x" (.onLine 6 10 10))
    (.name "x" (.onLine 6 14 14)) (.onLine 6 10 14))]
  binding := none
  location := .onLine 1 1 16

/-- What is read of it. The attribute that gives the intent keeps its spelling and its
place. -/
def terse : Parsed.Routine :=
  { wordy with
    declarations :=
      [⟨"x", "REAL", [⟨"Intent", ["IN"], .onLine 2 16 32⟩], .onLine 2 3 37⟩,
        ⟨"n", "integer", [], .onLine 5 3 14⟩] }

/-- Both functions are analysed to the same typed program. All four kinds of things are
taken out. -/
theorem analyze_wordy :
    ∃ u, (analyze {} ⟨[terse]⟩).outcome = .ok u ∧ (analyze {} ⟨[wordy]⟩).outcome = .ok u := by
  have hx : DeclarationPruned wordy.declarations[0] terse.declarations[0] :=
    ⟨rfl, rfl, .foreign (by decide) (.keep ⟨rfl, rfl, by simp, rfl⟩ .nil), rfl⟩
  have hn : DeclarationPruned wordy.declarations[3] terse.declarations[1] :=
    ⟨rfl, rfl, .nil, rfl⟩
  have hpruned : RoutinePruned wordy terse :=
    ⟨rfl, .keep hx (.result (by decide) (by decide)
      (.redeclaration (by decide) (.keep hn .nil)))⟩
  have hwordy : (analyze {} ⟨[wordy]⟩).outcome = (analyze {} ⟨[terse]⟩).outcome :=
    analyze_pruned (.cons hpruned .nil) {}
  exact ⟨_, rfl, hwordy⟩

end FortranFront.Analysis
