import FortranFront.Proofs.Declared

/-!
# `FortranFront.Proofs.Violations.Declarations`: all that is wrong with declarations

Whether a declaration, a dummy argument or the name of a routine is legal can be
read off the parsed program without a symbol table. `declarationViolations` lists
what is wrong in the order of the text: for each routine its deciding declarations,
for each of these its type before its intents, then the dummy arguments, then the
name of the routine.

`complaint?_declare` says that declaring a program reports the first of these, and
succeeds if there is none.
-/

set_option autoImplicit false

namespace FortranFront.Analysis

open Typed (Program)

/-! ### What can be wrong -/

/-- A type name must be that of a family of numbers, in any case. It is stated with the
two keywords and not through `ScalarType.ofName?`, which is what it is compared with. -/
def typeViolations (d : Parsed.Declaration) : List Diagnostic :=
  if Spells d.typeName "integer" ∨ Spells d.typeName "real" then []
  else [⟨.unsupportedType d.typeName, d.location⟩]

/-- An `intent` attribute must have an argument, and the first must be an intent, in any
case. An argument after the first is never wrong. -/
def intentViolations (a : Parsed.Attribute) : List Diagnostic :=
  match a.args with
  | [] => [⟨.emptyIntent, a.location⟩]
  | specifier :: _ =>
      if Spells specifier "in" ∨ Spells specifier "out" ∨ Spells specifier "inout" then []
      else [⟨.invalidIntent specifier, a.location⟩]

/-- What is wrong with a declaration that is read: first its type, then each of its
intents. All intents are judged, although only the last of them counts. -/
def variableViolations (d : Parsed.Declaration) : List Diagnostic :=
  typeViolations d ++
    (d.attributes.filter fun a => Spells a.name "intent").flatMap intentViolations

/-- A dummy argument must be among the names that its routine declares. A function's own
name is among them only if there is a declaration of it. -/
def parameterViolations (r : Parsed.Routine) (a : Parsed.Parameter) : List Diagnostic :=
  if a.name ∈ r.declarations.map (·.name) then [] else [⟨.undeclaredDummy a.name, a.location⟩]

/-- No earlier routine may have the name of a routine. The later of the two is the one
that is blamed. -/
def nameViolations (before : List Parsed.Routine) (r : Parsed.Routine) : List Diagnostic :=
  if r.name ∈ before.map (·.name) then [⟨.duplicateDefinition r.name, r.location⟩] else []

/-- What is wrong with a routine after others: its deciding declarations, then its dummy
arguments, then its name. Declarations that are passed over are not judged. -/
def routineViolations (before : List Parsed.Routine) (r : Parsed.Routine) : List Diagnostic :=
  (deciding r).flatMap variableViolations ++ r.parameters.flatMap (parameterViolations r) ++
    nameViolations before r

/-- What is wrong with the declarations of a program, routine by routine. The routines
before come from `withEarlier`, so no symbol table is needed to say what is wrong. -/
def declarationViolations (t : Parsed.Program) : List Diagnostic :=
  (withEarlier t.routines).flatMap fun (before, r) => routineViolations before r

/-! ### One declaration -/

/-- A type name that names no type is reported as it is spelled. The location is that of
the whole declaration. -/
theorem complaint?_typeNamed (d : Parsed.Declaration) :
    complaint? (typeNamed d.typeName d.location) = (typeViolations d).head? := by
  unfold typeNamed typeViolations ScalarType.ofName? Family.keyword
  rw [complaint?_blameNone]
  by_cases hinteger : Spells d.typeName "integer"
  · simp [hinteger]
  · by_cases hreal : Spells d.typeName "real"
    · simp [hinteger, hreal]
    · simp [hinteger, hreal]

/-- An intent that is missing or names none is reported as it is spelled. The cases are
the three specifiers in the order in which `Intent.ofSpecifier?` tries them. Further
arguments are not looked at on either side. -/
theorem complaint?_intentNamed (a : Parsed.Attribute) :
    complaint? (intentNamed a) = (intentViolations a).head? := by
  unfold intentNamed intentViolations
  cases a.args with
  | nil => rfl
  | cons specifier rest =>
      simp only [Intent.ofSpecifier?, Intent.word, complaint?_blameNone]
      -- Whichever of the three words it spells, both sides agree that it is one.
      by_cases hin : Spells specifier "in"
      · simp [hin]
      · by_cases hout : Spells specifier "out"
        · simp [hin, hout]
        · by_cases hinout : Spells specifier "inout"
          · simp [hin, hout, hinout]
          · simp [hin, hout, hinout]

/-- Of several intents the last counts, but the first that is wrong is reported. No step
reads the intent found before, so `complaint?_foldlM_last` applies. -/
theorem complaint?_intentOf (attributes : List Parsed.Attribute) :
    complaint? (intentOf attributes) =
      ((attributes.filter fun a => Spells a.name "intent").flatMap intentViolations).head? :=
  complaint?_foldlM_last complaint?_intentNamed _ _

/-- The type of a declaration is judged before its intents, as the two are computed one
after the other. -/
theorem complaint?_variableFor (d : Parsed.Declaration) :
    complaint? (variableFor d) = (variableViolations d).head? := by
  unfold variableFor variableViolations
  refine complaint?_bind (complaint?_typeNamed d) fun type _ => ?_
  -- Building the variable at the end adds no complaint.
  show complaint? ((intentOf d.attributes).bind _) = _
  rw [← List.append_nil (List.flatMap _ _)]
  exact complaint?_bind (complaint?_intentOf d.attributes) fun _ _ => rfl

/-! ### One routine -/

/-- The first dummy argument that is not declared is reported. The check goes through
the heading in its order. What counts is a declaration of the name, whether it decides
or is passed over. -/
theorem complaint?_checkParameters (r : Parsed.Routine) :
    complaint? (checkParameters r) = (r.parameters.flatMap (parameterViolations r)).head? := by
  refine complaint?_forM fun a _ => ?_
  rw [complaint?_blameUnless]
  have hdeclares : r.Declares a.name ↔ a.name ∈ r.declarations.map (·.name) := by
    simp [Parsed.Routine.Declares]
  unfold parameterViolations
  -- The check and the list ask for the same name among the declarations.
  by_cases h : a.name ∈ r.declarations.map (·.name)
  · rw [if_pos (hdeclares.mpr h), if_pos h]
    rfl
  · rw [if_neg fun hd => h (hdeclares.mp hd), if_neg h]
    rfl

/-- A routine is declared after others up to the first thing that is wrong with it.
`DeclaredFrom` is needed for its name: only by it does a name that cannot be added tell
that an earlier routine has it. -/
theorem complaint?_declareRoutine {before : List Parsed.Routine} {p : Program}
    (h : DeclaredFrom before p) (r : Parsed.Routine) :
    complaint? (declareRoutine p r).outcome = (routineViolations before r).head? := by
  rw [outcome_declareRoutine]
  unfold routineViolations
  rw [List.append_assoc]
  refine complaint?_bind (complaint?_localsOf complaint?_variableFor) fun locals _ =>
    complaint?_bind (complaint?_checkParameters r) fun _ _ => ?_
  have hadd := h.isSome_addRoutine?_iff locals
    (declaredRoutine r p.table.nextSymbol p.table.nextScope)
  rw [complaint?_blameNone]
  -- Whatever the variables are, the name can be added unless a routine before has it.
  unfold nameViolations
  by_cases hname : r.name ∈ before.map (·.name)
  · have hnone := Option.not_isSome_iff_eq_none.mp fun hsome => hadd.mp hsome hname
    rw [if_pos hname, hnone]
    rfl
  · obtain ⟨q, hq⟩ := Option.isSome_iff_exists.mp (hadd.mpr hname)
    rw [if_neg hname, hq]
    rfl

/-- Declaring one routine after the other stops at the first violation of them. The
invariant is `DeclaredFrom`, which `DeclaredFrom.step` keeps. -/
theorem complaint?_declareRoutines (rs : List Parsed.Routine) :
    complaint? (rs.foldlM (fun p r => (declareRoutine p r).outcome) .empty) =
      (declarationViolations ⟨rs⟩).head? := by
  have hstep : ∀ (before : List Parsed.Routine) (p : Program) (r : Parsed.Routine) (q : Program),
      DeclaredFrom before p → (declareRoutine p r).outcome = .ok q →
        DeclaredFrom (before ++ [r]) q :=
    fun _ _ _ _ hbefore hr => hbefore.step hr
  exact complaint?_foldlM DeclaredFrom routineViolations hstep
    (fun _ _ r hbefore => complaint?_declareRoutine hbefore r) .empty

/-- A program that is not declared has a violation, which is the reason. It is for those
who ask only whether there is one, and not which one is first. -/
theorem mem_declarationViolations {t : Parsed.Program} {e : Diagnostic}
    (h : (declare t).outcome = .error e) : e ∈ declarationViolations t := by
  have hfirst := complaint?_declareRoutines t.routines
  rw [← Traced.outcome_foldlM] at hfirst
  have hdeclare : complaint? (declare t).outcome = (declarationViolations t).head? := hfirst
  rw [h] at hdeclare
  exact List.mem_of_head? hdeclare.symm

/-- Declaring a program reports the first violation in its declarations, its dummy
arguments and the names of its routines, and succeeds exactly if there is none.

A routine is checked against the routines before it only, as their names are all that
its own can collide with. That the program so far has just these names is the invariant
`DeclaredFrom`, which each step of the walk keeps. -/
theorem complaint?_declare (t : Parsed.Program) :
    complaint? (declare t).outcome = (declarationViolations t).head? := by
  rw [declare, Traced.outcome_foldlM]
  exact complaint?_declareRoutines t.routines

end FortranFront.Analysis
