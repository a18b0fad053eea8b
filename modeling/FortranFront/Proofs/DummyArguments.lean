import FortranFront.Proofs.Denotations
import FortranFront.Proofs.Erasure

/-!
# `FortranFront.Proofs.DummyArguments`: what dummy arguments stand for

A routine must declare its dummy arguments, and linking makes each of them the
variable that its name is bound to. The two do not look at the same thing: the
check reads the list of declarations, and linking the scope, where the result of a
function was bound before any declaration was read.

* `denotesDeclaration_of_link`: a dummy argument stands for the variable of the
  first declaration of its name, as long as it is not named like its function.
* `denotesResult_of_link`: a dummy argument that is named like its function stands
  for the result, whatever the declaration of that name says.
* `dummies_of_analyze`: so in an analysed program the dummy arguments that stand
  for their own declarations are just those of another name than their function.
-/

set_option autoImplicit false

namespace FortranFront.Analysis

open Typed (Program Variable)

/-- A linked dummy argument denotes the variable of the first declaration of its name in
the routine, and this variable is not the result of the routine. The type in the tree is
that of the variable, and the place is that of the argument. -/
def DenotesDeclaration (table : SymbolTable) (r : Parsed.Routine) (routine : Typed.Routine)
    (a : Parsed.Parameter) (e : Typed.Expr) : Prop :=
  ∃ symbol v d, r.declarations.find? (·.name = a.name) = some d ∧ Describes d v ∧
    e = .var symbol routine.scope v.type a.location ∧ table.symbol? symbol = some (.var v) ∧
    ∀ result ∈ routine.result?, result.symbol? ≠ some symbol

/-- A linked dummy argument denotes the result of the function, which is an integer of
eight bytes, has no intent and stands where the function does. What the routine declares
under that name has no part in it. -/
def DenotesResult (table : SymbolTable) (r : Parsed.Routine) (routine : Typed.Routine)
    (a : Parsed.Parameter) (e : Typed.Expr) : Prop :=
  ∃ symbol, e = .var symbol routine.scope (.integer 8) a.location ∧
    table.symbol? symbol = some (.var ⟨r.name, .unspecified, .integer 8, r.location⟩) ∧
    routine.result? = some (.var symbol routine.scope (.integer 8) r.location)

/-- What stands for the result does not stand for a declaration, because
`DenotesDeclaration` excludes the handle of the result. -/
theorem DenotesResult.not_denotesDeclaration {table : SymbolTable} {r : Parsed.Routine}
    {routine : Typed.Routine} {a : Parsed.Parameter} {e : Typed.Expr}
    (h : DenotesResult table r routine a e) : ¬ DenotesDeclaration table r routine a e := by
  obtain ⟨symbol, rfl, -, hresult⟩ := h
  rintro ⟨symbol', v, d, -, -, he, -, hother⟩
  obtain ⟨rfl, -⟩ := Typed.Expr.var.inj he
  exact hother _ hresult rfl

/-! ### Declared programs -/

section Layout

variable {before : List Parsed.Routine} {r : Parsed.Routine} {after : List Parsed.Routine}
  {a : Parsed.Parameter} {e : Typed.Expr}

/-- Only a function has a result, and it is the first of its variables. The routine
comes into the program with it. -/
theorem result?_declaredRoutine (r : Parsed.Routine) (first : SymbolId) (scope : ScopeId) :
    (declaredRoutine r first scope).result? =
      if r.form = .function then some (.var first scope (.integer 8) r.location) else none := by
  cases hform : r.form <;>
    simp [declaredRoutine, Typed.Routine.result?, kindOf, resultVariable?, hform, resultType]

/-- A dummy argument with a name of its own denotes what the routine declares under that
name. Linking looks the name up in the scope of the routine, where
`exists_findVariable?_layout` has put the variable of the first declaration. -/
theorem denotesDeclaration_of_link (hknown : KnownAfter r r.declarations (variablesOf r))
    (hdeclares : r.Declares a.name) (hother : ¬ (r.form = .function ∧ a.name = r.name))
    (hlink : linkParameter (layout (before ++ r :: after)).table (scopeAfter before) a = .ok e) :
    DenotesDeclaration (layout (before ++ r :: after)).table r
      (declaredRoutine r ⟨extent before⟩ (scopeAfter before)) a e := by
  obtain ⟨symbol, v, hfound, rfl⟩ := linkParameter_eq_ok_iff.mp hlink
  obtain ⟨d, hd⟩ : ∃ d, r.declarations.find? (·.name = a.name) = some d := by
    obtain ⟨d, hmem, hname⟩ := hdeclares
    exact Option.isSome_iff_exists.mp (List.find?_isSome.mpr ⟨d, hmem, by simpa using hname⟩)
  -- The declaration has a variable, and it is the one that the scope binds the name to.
  obtain ⟨w, hw, hvariable⟩ := exists_mem_variablesOf hknown (mem_ownNames.not.mpr hother) hd
  have hname : w.name = a.name := by
    rw [name_of_variableFor hvariable]
    simpa using List.find?_some hd
  obtain ⟨symbol', hfound'⟩ := exists_findVariable?_layout after hknown hw
  rw [hname, hfound] at hfound'
  obtain ⟨rfl, rfl⟩ := Prod.mk.inj (Option.some.inj hfound')
  have hsymbol := (SymbolTable.findVariable?_eq_some_iff.mp hfound).2
  refine ⟨symbol, v, d, hd, describes_of_variableFor hvariable, rfl, hsymbol, ?_⟩
  -- The result has another name, so its handle leads to another variable.
  intro result hresult hsame
  rw [result?_declaredRoutine] at hresult
  obtain ⟨hform, hresult⟩ := Option.ite_none_right_eq_some.mp hresult
  cases hresult
  obtain rfl : ⟨extent before⟩ = symbol := Option.some.inj hsame
  have hown := @findVariable?_layout_result before r after hknown hform
  rw [(SymbolTable.findVariable?_eq_some_iff.mp hown).2] at hsymbol
  cases hsymbol
  exact hother ⟨hform, hname.symm⟩

/-- A dummy argument that is named like its function denotes the result. The name was
bound to the result before any declaration was read, and no declaration can take it
over. So the argument has the type of the result, even where a declaration gives the
name another one. -/
theorem denotesResult_of_link (hknown : KnownAfter r r.declarations (variablesOf r))
    (hown : r.form = .function ∧ a.name = r.name)
    (hlink : linkParameter (layout (before ++ r :: after)).table (scopeAfter before) a = .ok e) :
    DenotesResult (layout (before ++ r :: after)).table r
      (declaredRoutine r ⟨extent before⟩ (scopeAfter before)) a e := by
  obtain ⟨symbol, v, hfound, rfl⟩ := linkParameter_eq_ok_iff.mp hlink
  -- Under the name of the function the scope has its result.
  have hresult := @findVariable?_layout_result before r after hknown hown.1
  rw [hown.2, hresult] at hfound
  obtain ⟨rfl, rfl⟩ := Prod.mk.inj (Option.some.inj hfound)
  refine ⟨_, rfl, (SymbolTable.findVariable?_eq_some_iff.mp hresult).2, ?_⟩
  rw [result?_declaredRoutine]
  exact if_pos hown.1

end Layout

/-- What a dummy argument of a routine is linked to in the program that was declared.
The two lemmas above speak of a layout, and the routine is found in it wherever it
stands. -/
theorem denotes_of_link {t : Parsed.Program} {p : Program} {r : Parsed.Routine} {id : SymbolId}
    {first : SymbolId} {scope : ScopeId} {a : Parsed.Parameter} {e : Typed.Expr}
    (hp : (declare t).outcome = .ok p) (hr : r ∈ t.routines)
    (hfound : p.findRoutine? r.name = some (id, declaredRoutine r first scope))
    (hdeclares : r.Declares a.name) (hlink : linkParameter p.table scope a = .ok e) :
    (¬ (r.form = .function ∧ a.name = r.name) →
        DenotesDeclaration p.table r (declaredRoutine r first scope) a e) ∧
      (r.form = .function ∧ a.name = r.name →
        DenotesResult p.table r (declaredRoutine r first scope) a e) := by
  have hbuilt := built_of_declare hp
  have hbound := (declaredFrom_of_declare hp).wellBound
  obtain ⟨rfl, hknown⟩ := eq_layout_of_declare hp
  obtain ⟨before, after, hsplit⟩ := List.append_of_mem hr
  rw [hsplit] at hbuilt hbound hfound hlink ⊢
  -- The routine is found where it is laid out, so it has the scope it has there.
  rw [findRoutine?_layout hbuilt hbound] at hfound
  obtain ⟨-, hroutine⟩ := Prod.mk.inj (Option.some.inj hfound)
  obtain rfl : scopeAfter before = scope := congrArg Typed.Routine.scope hroutine
  rw [← hroutine]
  exact ⟨fun hother => denotesDeclaration_of_link (hknown r hr) hdeclares hother hlink,
    fun hown => denotesResult_of_link (hknown r hr) hown hlink⟩

/-! ### Analysed programs -/

/-- A dummy argument denotes the same in programs of one skeleton, and whatever else has
been filled into the routine. So what was linked in the declared program may be read in
the last one. -/
theorem DenotesDeclaration.congr {table table' : SymbolTable} {r : Parsed.Routine}
    {routine routine' : Typed.Routine} {a : Parsed.Parameter} {e : Typed.Expr}
    (h : DenotesDeclaration table r routine a e) (htable : table.skeleton = table'.skeleton)
    (hscope : routine'.scope = routine.scope) (hresult : routine'.result? = routine.result?) :
    DenotesDeclaration table' r routine' a e := by
  obtain ⟨symbol, v, d, hd, hdescribes, he, hsymbol, hother⟩ := h
  refine ⟨symbol, v, d, hd, hdescribes, ?_, SymbolTable.symbol?_var_congr htable hsymbol, ?_⟩
  · rw [he, hscope]
  · rw [hresult]
    exact hother

/-- What denotes the result in a program does so in every program of the same
skeleton. -/
theorem DenotesResult.congr {table table' : SymbolTable} {r : Parsed.Routine}
    {routine routine' : Typed.Routine} {a : Parsed.Parameter} {e : Typed.Expr}
    (h : DenotesResult table r routine a e) (htable : table.skeleton = table'.skeleton)
    (hscope : routine'.scope = routine.scope) (hresult : routine'.result? = routine.result?) :
    DenotesResult table' r routine' a e := by
  obtain ⟨symbol, he, hsymbol, hown⟩ := h
  refine ⟨symbol, ?_, SymbolTable.symbol?_var_congr htable hsymbol, ?_⟩
  · rw [he, hscope]
  · rw [hresult, hscope, hown]

/-- The dummy arguments of an analysed program are linked in their order. One that is
named like its function denotes the result, and just the others denote their own
declarations. The exception is there for functions only, since a subroutine has no
result that could take the name.

What an argument is linked to was found in the declared program, where `denotes_of_link`
knows it from the layout. The passes change neither the variables nor the results, so it
denotes the same in the last program. -/
theorem dummies_of_analyze {options : Options} {t : Parsed.Program} {q : Program}
    (h : (analyze options t).outcome = .ok q) :
    List.Forall₂ (fun r routine => List.Forall₂ (fun a e =>
        (DenotesDeclaration q.table r routine a e ↔
          ¬ (r.form = .function ∧ a.name = r.name)) ∧
        (r.form = .function ∧ a.name = r.name → DenotesResult q.table r routine a e))
      r.parameters routine.parameters) t.routines q.routines := by
  obtain ⟨p, hp, hresolve, hlink, rfl⟩ := analyze_eq_ok_iff.mp h
  have hdeclared := declaredFrom_of_declare hp
  have hskeleton : p.skeleton = (link t (resolve options t p).program).program.skeleton :=
    (skeleton_afterSession p [.resolve options t, .link t]).symm
  have htable := Program.table_skeleton_congr hskeleton
  refine hdeclared.forall₂_routines (Program.items_congr hskeleton).symm fun r hr id hid => ?_
  obtain ⟨first, scope, body, linked, hfound, -, hlinked, hsymbol⟩ :=
    hdeclared.exists_filled hresolve hlink hr hid
  refine ⟨_, hsymbol, ?_⟩
  -- Each argument is taken with the check it has passed and with what it is linked to.
  have hpairs := (List.forall₂_and_left _ _).mpr ⟨hid.parameters, hlinked⟩
  refine hpairs.imp fun a e ⟨hdeclares, he⟩ => ?_
  obtain ⟨hdeclaration, hresult⟩ := denotes_of_link hp hr hfound hdeclares he
  refine ⟨⟨fun hdenotes hown => ?_, fun hother => (hdeclaration hother).congr htable rfl rfl⟩,
    fun hown => (hresult hown).congr htable rfl rfl⟩
  exact ((hresult hown).congr htable rfl rfl).not_denotesDeclaration hdenotes

/-- A function with a dummy argument of its own name, which it declares as a real
number. The declaration is passed over, and with it the intent. -/
def selfNamed : Parsed.Routine where
  form := .function
  name := "f"
  parameters := [⟨"f", .onLine 1 20 20⟩]
  declarations := [⟨"f", "real", [⟨"intent", ["in"], .onLine 2 9 18⟩], .onLine 2 3 23⟩]
  body := []
  binding := none
  location := .onLine 1 1 21

/-- Its declaration is a declaration of the dummy argument, so the function is accepted,
but what the dummy argument is linked to is the result. -/
theorem selfNamed_not_denotesDeclaration :
    ∃ q, (analyze {} ⟨[selfNamed]⟩).outcome = .ok q ∧
      ¬ List.Forall₂ (fun r routine => List.Forall₂ (DenotesDeclaration q.table r routine)
        r.parameters routine.parameters) [selfNamed] q.routines := by
  refine ⟨_, rfl, fun hall => ?_⟩
  obtain ⟨hparameters, -⟩ := List.forall₂_cons.mp hall
  obtain ⟨hdummy, -⟩ := List.forall₂_cons.mp hparameters
  exact DenotesResult.not_denotesDeclaration ⟨⟨0⟩, rfl, rfl, rfl⟩ hdummy

/-- After that function comes one whose dummy argument is declared twice and stands for
the first declaration. Its handle is the one behind its own result. -/
theorem dummies_selfNamed_squared :
    ∃ q, (analyze {} ⟨[selfNamed, squared]⟩).outcome = .ok q ∧
      q.routines.map (·.parameters) = [[.var ⟨0⟩ ⟨1⟩ (.integer 8) (.onLine 1 20 20)],
        [.var ⟨3⟩ ⟨2⟩ (.real 4) (.onLine 1 18 18)]] ∧
      List.Forall₂ (fun r routine => List.Forall₂ (fun a e =>
          (DenotesDeclaration q.table r routine a e ↔
            ¬ (r.form = .function ∧ a.name = r.name)) ∧
          (r.form = .function ∧ a.name = r.name → DenotesResult q.table r routine a e))
        r.parameters routine.parameters) [selfNamed, squared] q.routines := by
  have h : (analyze {} ⟨[selfNamed, squared]⟩).outcome = .ok _ := rfl
  exact ⟨_, h, rfl, dummies_of_analyze h⟩

end FortranFront.Analysis
