import FortranFront.Proofs.DeclaredVariables
import FortranFront.Proofs.Visiting

/-!
# `FortranFront.Proofs.References`: names, records and handles in one order

The names in the bodies of a program are met three times: where the source is read
from left to right, where each name is resolved and a record of it is left, and
where the typed bodies are visited for the variables they mention. A `Reference` is
such a name with the symbol it stands for and the scope that binds it. `Agreeing`
says that the three are about the same references.

* `Agreeing.append` and `Agreeing.flatMap`: what agrees part by part agrees in a row.
* `agreeing_resolveExpr`: the three agree on an expression that is resolved, by
  induction on what it is resolved to.
* `agreeing_resolve`: so they agree on all bodies that a pass goes through.
* `references_of_analyze`: and on a whole analysis, which besides records its
  variables in the order of their handles.
-/

set_option autoImplicit false

namespace FortranFront

/-! ### Names and references -/

namespace Parsed

/-- The names in an expression from left to right, with repeats. This is the order of
the source text. -/
def Expr.names : Expr → List String
  | .name id _ => [id]
  | .literal _ _ => []
  | .binary _ left right _ => left.names ++ right.names

/-- The names on both sides of an assignment, those of the target first. -/
def Assignment.names (a : Assignment) : List String := a.target.names ++ a.value.names

/-- The names in the body of a routine, statement by statement. Dummy arguments and
declarations are not in the body. -/
def Routine.names (r : Routine) : List String := r.body.flatMap (·.names)

end Parsed

/-- A name with the symbol it stands for and the scope that binds it. The source has the
first, and a typed tree the second. -/
structure Reference where
  name : String
  symbol : SymbolId
  scope : ScopeId
deriving DecidableEq

/-- The reference that a record is about, if it is about one. Only the record of a
resolved name is. -/
def Record.reference? : Record → Option Reference
  | .resolvedName name symbol scope => some ⟨name, symbol, scope⟩
  | _ => none

/-- What a name refers to in a scope. It may be a routine as well, though the bodies
only refer to variables. -/
def SymbolTable.reference? (t : SymbolTable) (scope : ScopeId) (name : String) :
    Option Reference :=
  (t.lookup scope name).map fun symbol => ⟨name, symbol, scope⟩

/-- What a name refers to in the scope of the named routine, as it is asked of a
finished program. -/
def Typed.Program.reference? (p : Program) (routine name : String) : Option Reference :=
  (p.routine? routine).bind fun r => p.table.reference? r.scope name

namespace Analysis

open Typed (Program)

/-- Names that are looked up, records and handles are about the same references in the
same order. Every name is found, and no record is about a declared variable. The records
are the middle of the three, and both others are compared with them. -/
structure Agreeing (found : List (Option Reference)) (records : List Record)
    (handles : List SymbolId) : Prop where
  found : found = (records.filterMap Record.reference?).map some
  handles : handles = (records.filterMap Record.reference?).map Reference.symbol
  declarations : records.filterMap Record.declaration? = []

namespace Agreeing

variable {found found' : List (Option Reference)} {records records' : List Record}
  {handles handles' : List SymbolId}

/-- Where there is nothing, all agrees. -/
theorem nil : Agreeing [] [] [] := ⟨rfl, rfl, rfl⟩

/-- What agrees goes together in a row, and this is why the parts may be taken one by
one. -/
theorem append (h : Agreeing found records handles) (h' : Agreeing found' records' handles') :
    Agreeing (found ++ found') (records ++ records') (handles ++ handles') where
  found := by rw [List.filterMap_append, List.map_append, ← h.found, ← h'.found]
  handles := by rw [List.filterMap_append, List.map_append, ← h.handles, ← h'.handles]
  declarations := by rw [List.filterMap_append, h.declarations, h'.declarations, List.nil_append]

/-- A record of another kind makes no difference. A pass leaves such records behind its
bodies. -/
theorem append_record (h : Agreeing found records handles) {record : Record}
    (hreference : record.reference? = none) (hdeclaration : record.declaration? = none) :
    Agreeing found (records ++ [record]) handles := by
  have hlast : Agreeing [] [record] [] := by
    constructor <;> simp [hreference, hdeclaration]
  simpa using h.append hlast

/-- What agrees element by element agrees in a row. The typed elements are related to
the parsed ones, from which the names and the records come. -/
theorem flatMap {α β : Type} {R : α → β → Prop} {xs : List α} {ys : List β}
    (h : List.Forall₂ R xs ys) {f : α → List (Option Reference)} {g : α → List Record}
    {k : β → List SymbolId} (hR : ∀ x y, R x y → Agreeing (f x) (g x) (k y)) :
    Agreeing (xs.flatMap f) (xs.flatMap g) (ys.flatMap k) := by
  induction h with
  | nil => exact nil
  | cons hxy _ ih =>
      rw [List.flatMap_cons, List.flatMap_cons, List.flatMap_cons]
      exact (hR _ _ hxy).append ih

end Agreeing

/-! ### Bodies -/

section Bodies

variable {options : Options} {table : SymbolTable} {scope : ScopeId}

/-- The three agree on an expression that is resolved. The induction is on the
resolution: a name has one reference, and an operation has those of its left operand and
then those of its right one. -/
theorem agreeing_resolveExpr {e : Parsed.Expr} {e' : Typed.Expr}
    (h : Resolves table scope e e') :
    Agreeing (e.names.map (table.reference? scope)) (resolveExpr table scope e).records
      (e'.postorder.filterMap Typed.Expr.symbol?) := by
  induction h with
  | @name id location symbol v hfound =>
      have hlookup := (SymbolTable.findVariable?_eq_some_iff.mp hfound).1
      have hrecords : (resolveExpr table scope (.name id location)).records =
          [.resolvedName id symbol scope] := by
        simp only [resolveExpr, resolveName, hfound]
        rfl
      rw [hrecords]
      constructor
      case found => simp [Parsed.Expr.names, SymbolTable.reference?, hlookup, Record.reference?]
      case handles => rfl
      case declarations => rfl
  | literal => exact .nil
  | @binary op left right left' right' location hl hr hfamily ihl ihr =>
      -- The operation itself has no name and leaves no record.
      have hrecords : (resolveExpr table scope (.binary op left right location)).records =
          (resolveExpr table scope left).records ++ (resolveExpr table scope right).records :=
        Traced.records_checked_of_ok _ (resolveExpr_eq_ok_iff.mpr hl) (resolveExpr_eq_ok_iff.mpr hr)
          (blameUnless_eq_ok_iff.mpr hfamily)
      have hhandles : (Typed.Expr.binary (.ofParsed op) left' right' operationType
          location).postorder.filterMap Typed.Expr.symbol? =
            left'.postorder.filterMap Typed.Expr.symbol? ++
              right'.postorder.filterMap Typed.Expr.symbol? := by
        simp [Typed.Expr.postorder, Typed.Expr.symbol?]
      rw [hrecords, hhandles, Parsed.Expr.names, List.map_append]
      exact ihl.append ihr

/-- The three agree on an assignment that is resolved, target before value. The check of
the sides leaves no record, so there is nothing between the two trees or behind them. -/
theorem agreeing_resolveAssignment {a : Parsed.Assignment} {a' : Typed.Assignment}
    (h : ResolvesAssignment options table scope a a') :
    Agreeing (a.names.map (table.reference? scope))
      (resolveAssignment options table scope a).records
      (a'.postorder.filterMap Typed.Expr.symbol?) := by
  -- The assignment is resolved, so the check has let it pass.
  have hrecords : (resolveAssignment options table scope a).records =
      (resolveExpr table scope a.target).records ++ (resolveExpr table scope a.value).records :=
    Traced.records_checked_of_ok _ (resolveExpr_eq_ok_iff.mpr h.target)
      (resolveExpr_eq_ok_iff.mpr h.value) (blameUnless_eq_ok_iff.mpr h.sameFamily)
  rw [hrecords, Typed.Assignment.postorder, List.filterMap_append, Parsed.Assignment.names,
    List.map_append]
  exact (agreeing_resolveExpr h.target).append (agreeing_resolveExpr h.value)

/-- The three agree on a body that is resolved, with the record at its end left out of
account. -/
theorem agreeing_compute {r : Parsed.Routine} {body : List Typed.Assignment}
    (h : List.Forall₂ (ResolvesAssignment options table scope) r.body body) :
    Agreeing (r.names.map (table.reference? scope))
      ((bodies options).compute table scope r).records
      ((body.flatMap (·.postorder)).filterMap Typed.Expr.symbol?) := by
  have hok : ((bodies options).compute table scope r).outcome = .ok body := by
    rw [outcome_compute_bodies, mapM_eq_ok_iff]
    exact h.imp fun _ _ ha => resolveAssignment_eq_ok_iff.mpr ha
  rw [records_compute_bodies hok, Parsed.Routine.names, List.map_flatMap, List.filterMap_flatMap]
  exact (Agreeing.flatMap h fun _ _ => agreeing_resolveAssignment).append_record rfl rfl

end Bodies

/-! ### Analysed programs -/

variable {options : Options} {t : Parsed.Program} {p q : Program}

/-- A declaration refers to no name of a body. Its records are about variables and
routines. The walk carries a state, so `Traced.filterMap_records_foldlM` is used twice,
over the declarations of a routine and over the routines. -/
theorem noReference_of_declare (h : (declare t).outcome = .ok p) :
    (declare t).records.filterMap Record.reference? = [] := by
  -- Neither a declaration nor a routine around it refers to a name.
  have hlocal : ∀ (known : List Typed.Variable) (d : Parsed.Declaration)
      (known' : List Typed.Variable), (declareLocal known d).outcome = .ok known' →
        (declareLocal known d).records.filterMap Record.reference? = [] := by
    intro known d known' hd
    obtain ⟨-, hrecords⟩ | ⟨v, -, hrecords⟩ := records_declareLocal hd
    · rw [hrecords]; rfl
    · rw [hrecords]; rfl
  have hroutine : ∀ (p : Program) (r : Parsed.Routine) (q : Program),
      (declareRoutine p r).outcome = .ok q →
        (declareRoutine p r).records.filterMap Record.reference? = [] := by
    intro p r q hr
    obtain ⟨locals, hlocals, -⟩ := declareRoutine_eq_ok_iff.mp hr
    have hnone : (localsOf r).records.filterMap Record.reference? =
        r.declarations.flatMap fun _ => [] :=
      Traced.filterMap_records_foldlM (f := declareLocal) Record.reference? hlocal hlocals
    rw [records_declareRoutine hr, List.filterMap_cons_none rfl, hnone]
    simp
  have hdeclare : (declare t).records.filterMap Record.reference? = t.routines.flatMap fun _ => [] :=
    Traced.filterMap_records_foldlM (f := declareRoutine) Record.reference? hroutine h
  rw [hdeclare]
  simp

/-- Linking refers to no name of a body either, and declares nothing. It leaves one
record for each routine, with the number of its dummy arguments, and the names of these
are not recorded. -/
theorem records_of_link {q : Program} (hq : q.skeleton = p.skeleton)
    (h : (link t q).result.outcome = .ok ()) {record : Record}
    (hrecord : record ∈ (link t q).result.records) :
    record.reference? = none ∧ record.declaration? = none := by
  rw [link_eq_run] at h hrecord
  rw [parameters.records_run_of_ok hq h] at hrecord
  obtain ⟨r, hr, hstep⟩ := List.mem_flatMap.mp hrecord
  obtain ⟨⟨id, linked⟩, hplan⟩ := parameters.outcome_run_eq_ok_iff.mp h r hr
  rw [parameters.plan_congr hq] at hplan
  obtain ⟨routine, hfound, hcompute⟩ := Filling.plan_eq_ok_iff.mp hplan
  rw [parameters.records_step hfound, records_compute_parameters hcompute,
    List.mem_singleton] at hstep
  rw [hstep]
  exact ⟨rfl, rfl⟩

/-- The names of all bodies, looked up in the program that has come about, agree with
what was recorded while the bodies were resolved and with what the typed bodies mention.
By `Typed.Routine.references_eq_filterMap` what a visit collects is what can be read off
the nodes. -/
theorem agreeing_resolve (hdeclare : (declare t).outcome = .ok p)
    (hresolve : (resolve options t p).result.outcome = .ok ())
    (hlink : (link t (resolve options t p).program).result.outcome = .ok ())
    (hq : (link t (resolve options t p).program).program = q) :
    Agreeing (t.routines.flatMap fun r => r.names.map (q.reference? r.name))
      (resolve options t p).result.records (q.routines.flatMap (·.references)) := by
  have hdeclared := declaredFrom_of_declare hdeclare
  have hskeleton : p.skeleton = q.skeleton :=
    hq ▸ (skeleton_afterSession p [.resolve options t, .link t]).symm
  have htable := Program.table_skeleton_congr hskeleton
  -- All steps may be read on the declared program, where the names were looked up.
  have hrecords : (resolve options t p).result.records =
      t.routines.flatMap fun r => ((bodies options).step p r).records := by
    rw [resolve_eq_run] at hresolve ⊢
    exact (bodies options).records_run_of_ok rfl hresolve
  rw [hrecords]
  refine Agreeing.flatMap (hdeclared.forall₂_routines (Program.items_congr hskeleton).symm
    fun r hr id hid => ?_) fun r routine hagrees => hagrees
  obtain ⟨first, scope, body, linked, hfound, hbody, -, hsymbol⟩ :=
    hdeclared.exists_filled hresolve hlink hr hid
  rw [hq] at hsymbol
  refine ⟨_, hsymbol, ?_⟩
  -- The routine is found under its name in the last program too, and its scope is what it was.
  have hlater : q.findRoutine? r.name = some (id, { declaredRoutine r first scope with
      parameters := linked, body := body }) :=
    Program.findRoutine?_eq_some_iff.mpr
      ⟨(SymbolTable.lookup_congr htable _ _).symm.trans hid.bound, hsymbol⟩
  have hreference : q.reference? r.name = p.table.reference? scope := by
    funext name
    rw [Program.reference?, Program.routine?, hlater, SymbolTable.reference?,
      SymbolTable.lookup_congr htable]
    rfl
  rw [hreference, (bodies options).records_step hfound, Typed.Routine.references_eq_filterMap]
  exact agreeing_compute hbody

/-- In an analysed program the names of the bodies in source order, each looked up in
the scope of its own routine, are one by one what the analysis has recorded as resolved.
The variables that the typed bodies mention are the symbols of the same references in
the same order. And the variables that are recorded as declared are those of the program
but for the results of functions, by increasing handle, each with its name, its type and
its intent.

The records of the analysis are those of its passes in a row. Of these only resolution
records references and only the declaration records variables, so `agreeing_resolve` and
`records_of_declare` give the three parts. -/
theorem references_of_analyze (h : (analyze options t).outcome = .ok q) :
    t.routines.flatMap (fun r => r.names.map (q.reference? r.name)) =
        ((analyze options t).records.filterMap Record.reference?).map some ∧
      q.routines.flatMap (·.references) =
        ((analyze options t).records.filterMap Record.reference?).map Reference.symbol ∧
      (analyze options t).records.filterMap Record.declaration? =
        q.declaredVariables.map fun v => (v.name, v.type, v.intent) := by
  obtain ⟨p, hdeclare, hresolve, hlink, hq⟩ := analyze_eq_ok_iff.mp h
  have hagree := agreeing_resolve hdeclare hresolve hlink hq
  have hresolved : (resolve options t p).program.skeleton = p.skeleton :=
    skeleton_afterSession p [.resolve options t]
  have hskeleton : p.skeleton = q.skeleton :=
    hq ▸ (skeleton_afterSession p [.resolve options t, .link t]).symm
  -- Of the references none is recorded but by the resolution, and of the variables none but by
  -- the declaration.
  have hlinked : ∀ {γ : Type} (pick : Record → Option γ),
      (∀ record ∈ (link t (resolve options t p).program).result.records, pick record = none) →
        (link t (resolve options t p).program).result.records.filterMap pick = [] :=
    fun _ hnone => List.filterMap_eq_nil_iff.mpr hnone
  have hreferences : (analyze options t).records.filterMap Record.reference? =
      (resolve options t p).result.records.filterMap Record.reference? := by
    rw [records_analyze_of_ok hdeclare hresolve hlink hq, List.filterMap_cons_none rfl,
      List.filterMap_append, List.filterMap_append, List.filterMap_append,
      noReference_of_declare hdeclare,
      hlinked _ fun _ hrecord => (records_of_link hresolved hlink hrecord).1]
    simp [Record.reference?]
  have hdeclarations : (analyze options t).records.filterMap Record.declaration? =
      (declare t).records.filterMap Record.declaration? := by
    rw [records_analyze_of_ok hdeclare hresolve hlink hq, List.filterMap_cons_none rfl,
      List.filterMap_append, List.filterMap_append, List.filterMap_append, hagree.declarations,
      hlinked _ fun _ hrecord => (records_of_link hresolved hlink hrecord).2]
    simp [Record.declaration?]
  refine ⟨?_, ?_, ?_⟩
  · rw [hreferences]
    exact hagree.found
  · rw [hreferences]
    exact hagree.handles
  · rw [hdeclarations, records_of_declare hdeclare, Program.declaredVariables_congr hskeleton]
    rfl

/-- A function that uses its result and its argument, and a subroutine that has the same names for
variables of its own and mentions one of them three times in a nested operation. -/
def scaledTwice : Parsed.Program where
  routines := [
    { form := .function
      name := "scaled"
      parameters := [⟨"x", .onLine 1 17 17⟩]
      declarations := [⟨"x", "integer", [⟨"intent", ["in"], .onLine 2 12 21⟩], .onLine 2 3 26⟩,
        ⟨"scaled", "real", [], .onLine 3 3 16⟩]
      body := [.of (.name "scaled" (.onLine 4 3 8))
        (.apply .add (.name "x" (.onLine 4 12 12)) (.name "scaled" (.onLine 4 16 21)))]
      binding := none
      location := .onLine 1 1 18 },
    { form := .subroutine
      name := "twice"
      parameters := []
      declarations := [⟨"y", "real", [], .onLine 7 3 11⟩, ⟨"x", "real", [], .onLine 8 3 11⟩]
      body := [.of (.name "x" (.onLine 9 3 3)) (.apply .mul (.name "y" (.onLine 9 7 7))
        (.apply .sub (.name "x" (.onLine 9 12 12)) (.name "x" (.onLine 9 16 16))))]
      binding := none
      location := .onLine 6 1 16 }]

/-- The handles in the two bodies, the recorded variables, and the agreement of all
lists. Both routines have an `x`, and each is referred to by its own handle. -/
theorem references_scaledTwice :
    ∃ q, (analyze {} scaledTwice).outcome = .ok q ∧
      q.routines.map (·.references) = [[⟨0⟩, ⟨1⟩, ⟨0⟩], [⟨4⟩, ⟨3⟩, ⟨4⟩, ⟨4⟩]] ∧
      q.declaredVariables.map (·.name) = ["x", "y", "x"] ∧
      scaledTwice.routines.flatMap (fun r => r.names.map (q.reference? r.name)) =
        ((analyze {} scaledTwice).records.filterMap Record.reference?).map some ∧
      q.routines.flatMap (·.references) =
        ((analyze {} scaledTwice).records.filterMap Record.reference?).map Reference.symbol ∧
      (analyze {} scaledTwice).records.filterMap Record.declaration? =
        q.declaredVariables.map fun v => (v.name, v.type, v.intent) := by
  have h : (analyze {} scaledTwice).outcome = .ok _ := rfl
  exact ⟨_, h, rfl, rfl, references_of_analyze h⟩

end Analysis

end FortranFront
