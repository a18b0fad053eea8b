import FortranFront.Proofs.Agreement
import FortranFront.Proofs.Bindings
import FortranFront.Proofs.Composition
import FortranFront.Proofs.Counterparts

/-!
# `FortranFront.Proofs.Reordering`: the order of declarations

The declarations of a routine may be written in another order, as long as those of
one name keep theirs, since the first of them counts. The variables are then the
same in another order. They get other numbers, and another violation may come
first. `RoutineReordered` relates the routines of two such programs.

* `RoutineReordered.perm_variablesOf` and `perm_declarationViolations`: reordered
  routines have the same variables and the same violations, in some order. So one
  program is declared if the other is.
* `Binds.reordered` and `Binds.same_number`: in each scope the same names are bound
  to the same symbols, and these take up the same numbers.
* `sameUpTo_of_reordered`: so the declared programs are the same up to a permutation
  of numbers, which leaves the routines and the results of functions alone.
* `analyze_reordered`: the analysis goes on alike from there.
-/

set_option autoImplicit false

namespace FortranFront.Analysis

open Typed (Program Symbol Variable)

/-! ### Reordered routines -/

/-- Two routines differ in the order of their declarations only, and declarations of one
name stand in the same order in both. So the first declaration of each name is the
same. -/
structure RoutineReordered (r r' : Parsed.Routine) : Prop where
  bare_eq : bare r = bare r'
  perm : r.declarations.Perm r'.declarations
  order : ∀ name, r.declarations.filter (·.name = name) = r'.declarations.filter (·.name = name)

/-- A declaration decides its name if the name is not taken and it is the first of this
name. Where it stands among declarations of other names does not matter. This is why the
order of the names is free. -/
theorem mem_decidingAmong_iff {taken : List String} {ds : List Parsed.Declaration}
    {d : Parsed.Declaration} :
    d ∈ decidingAmong taken ds ↔ d.name ∉ taken ∧ ds.find? (·.name = d.name) = some d := by
  constructor
  · intro hd
    obtain ⟨hdeclared, hfree⟩ := mem_names_decidingAmong.mp (List.mem_map.mpr ⟨d, hd, rfl⟩)
    refine ⟨hfree, ?_⟩
    obtain ⟨other, hother, hname⟩ := List.mem_map.mp hdeclared
    obtain ⟨first, hfirst⟩ : ∃ first, ds.find? (·.name = d.name) = some first :=
      Option.isSome_iff_exists.mp (List.find?_isSome.mpr ⟨other, hother, by simpa using hname⟩)
    -- The first declaration of the name decides it as well, and no name is decided twice.
    have hdecides := mem_decidingAmong_of_find? hfree hfirst
    have hsame : first.name = d.name := by simpa using List.find?_some hfirst
    rw [hfirst, List.inj_on_of_nodup_map (nodup_names_decidingAmong taken ds) hdecides hd hsame]
  · rintro ⟨hfree, hfirst⟩
    exact mem_decidingAmong_of_find? hfree hfirst

/-- The same declarations decide in another order, as long as the first of each name
stays first. No name is decided twice, so it is enough to compare the members. -/
theorem perm_decidingAmong (taken : List String) {ds ds' : List Parsed.Declaration}
    (horder : ∀ name, ds.filter (·.name = name) = ds'.filter (·.name = name)) :
    (decidingAmong taken ds).Perm (decidingAmong taken ds') := by
  have hfind : ∀ name, ds.find? (·.name = name) = ds'.find? (·.name = name) := by
    intro name
    rw [← List.head?_filter, ← List.head?_filter, horder]
  refine (List.perm_ext_iff_of_nodup (.of_map _ (nodup_names_decidingAmong taken ds))
    (.of_map _ (nodup_names_decidingAmong taken ds'))).mpr ?_
  intro d
  rw [mem_decidingAmong_iff, mem_decidingAmong_iff, hfind]

namespace RoutineReordered

variable {r r' : Parsed.Routine}

/-- The relation holds the other way round as well. -/
theorem symm (h : RoutineReordered r r') : RoutineReordered r' r :=
  ⟨h.bare_eq.symm, h.perm.symm, fun name => (h.order name).symm⟩

/-- Every routine is one reordering of itself. -/
theorem refl (r : Parsed.Routine) : RoutineReordered r r := ⟨rfl, .refl _, fun _ => rfl⟩

/-- Declarations of different names may change places. Every reordering is made of such
steps. -/
theorem of_swap (r : Parsed.Routine) (before : List Parsed.Declaration) {d e : Parsed.Declaration}
    (after : List Parsed.Declaration) (hne : d.name ≠ e.name) :
    RoutineReordered { r with declarations := before ++ d :: e :: after }
      { r with declarations := before ++ e :: d :: after } where
  bare_eq := rfl
  perm := (List.Perm.swap e d after).append_left before
  order name := by
    rw [List.filter_append, List.filter_append]
    -- Only one of the two has the name.
    by_cases hd : d.name = name
    · have he : e.name ≠ name := fun he => hne (hd.trans he.symm)
      simp [hd, he]
    · simp [List.filter_cons, hd]

/-- Reordered routines have the same name. -/
theorem name_eq (h : RoutineReordered r r') : r.name = r'.name :=
  (congrArg Parsed.Routine.name h.bare_eq :)

/-- The same declarations decide, in some order. -/
theorem perm_deciding (h : RoutineReordered r r') : (deciding r).Perm (deciding r') := by
  have hown : ownNames r = ownNames r' := (congrArg ownNames h.bare_eq :)
  unfold deciding
  rw [← hown]
  exact perm_decidingAmong _ h.order

/-- The variables are the same, in some order. The result variable is the first of them
in both, as no declaration makes it. So the block of a routine is as long as before, and
the blocks after it begin where they did. -/
theorem perm_variablesOf (h : RoutineReordered r r') : (variablesOf r).Perm (variablesOf r') := by
  have hresult : resultVariable? r = resultVariable? r' := (congrArg resultVariable? h.bare_eq :)
  unfold variablesOf
  rw [← hresult]
  exact (h.perm_deciding.filterMap _).append_left _

/-- The same is wrong with the routines, in some order. The names of the routines before
are all that is read of those. The violations of the declarations that decide are
permuted with these, and all others stay. -/
theorem perm_routineViolations (h : RoutineReordered r r') {before before' : List Parsed.Routine}
    (hnames : before.map (·.name) = before'.map (·.name)) :
    (routineViolations before r).Perm (routineViolations before' r') := by
  have hparameters : r.parameters = r'.parameters :=
    (congrArg Parsed.Routine.parameters h.bare_eq :)
  have hlocation : r.location = r'.location := (congrArg Parsed.Routine.location h.bare_eq :)
  -- The check of a dummy argument asks for names, and these are the same.
  have hdummies : parameterViolations r = parameterViolations r' := by
    funext a
    simp only [parameterViolations, (h.perm.map (·.name)).mem_iff]
  have hname : nameViolations before r = nameViolations before' r' := by
    simp only [nameViolations, hnames, h.name_eq, hlocation]
  unfold routineViolations
  rw [← hparameters, hdummies, hname]
  exact ((h.perm_deciding.flatMap_right _).append_right _).append_right _

end RoutineReordered

/-! ### Reordered programs -/

/-- Related lists have related elements behind related elements. So a routine has its
partner in the same scope. -/
theorem forall₂_withEarlier {α β : Type} {R : α → β → Prop} {xs : List α} {ys : List β}
    (h : List.Forall₂ R xs ys) :
    List.Forall₂ (fun x y => List.Forall₂ R x.1 y.1 ∧ R x.2 y.2) (withEarlier xs)
      (withEarlier ys) := by
  induction h with
  | nil => exact .nil
  | cons hxy _ ih =>
      rw [withEarlier_cons, withEarlier_cons]
      refine .cons ⟨.nil, hxy⟩ ?_
      rw [List.forall₂_map_left_iff, List.forall₂_map_right_iff]
      exact ih.imp fun _ _ hearlier => ⟨.cons hxy hearlier.1, hearlier.2⟩

/-- Lists come out in another order if the parts do that they are made of. -/
theorem perm_flatMap_of_forall₂ {α β γ : Type} {R : α → β → Prop} {xs : List α} {ys : List β}
    {f : α → List γ} {g : β → List γ} (h : List.Forall₂ R xs ys)
    (hfg : ∀ x y, R x y → (f x).Perm (g y)) : (xs.flatMap f).Perm (ys.flatMap g) := by
  induction h with
  | nil => exact .refl _
  | cons hxy _ ih =>
      rw [List.flatMap_cons, List.flatMap_cons]
      exact (hfg _ _ hxy).append ih

section Programs

variable {rs rs' : List Parsed.Routine}

/-- The same is wrong with the declarations of a program, in some order. Which comes
first may be different, so the diagnostics may be too. That one list is empty exactly if
the other is, is all that is needed for acceptance. -/
theorem perm_declarationViolations (h : List.Forall₂ RoutineReordered rs rs') :
    (declarationViolations ⟨rs⟩).Perm (declarationViolations ⟨rs'⟩) := by
  refine perm_flatMap_of_forall₂ (forall₂_withEarlier h) ?_
  rintro ⟨before, r⟩ ⟨before', r'⟩ ⟨hbefore, hr⟩
  exact hr.perm_routineViolations (map_eq_map_of_forall₂ hbefore fun _ _ hother => hother.name_eq)

/-- A program is declared if nothing is wrong with its declarations, and only then. -/
theorem exists_declare_iff {t : Parsed.Program} :
    (∃ p, (declare t).outcome = .ok p) ↔ declarationViolations t = [] := by
  have hfirst := complaint?_declareRoutines t.routines
  rw [← Traced.outcome_foldlM] at hfirst
  have hdeclare : complaint? (declare t).outcome = (declarationViolations t).head? := hfirst
  rw [← List.head?_eq_none_iff, ← hdeclare]
  cases (declare t).outcome <;> simp

/-- Reordered routines take as many symbols, so the next routine starts at the same
number. -/
theorem extent_eq (h : List.Forall₂ RoutineReordered rs rs') : extent rs = extent rs' := by
  have hvariables := perm_flatMap_of_forall₂ h fun _ _ hr => hr.perm_variablesOf
  rw [extent, extent, hvariables.length_eq, h.length_eq]

/-- A routine keeps its scope when the routines before it are reordered. -/
theorem scopeAfter_eq (h : List.Forall₂ RoutineReordered rs rs') :
    scopeAfter rs = scopeAfter rs' := by
  rw [scopeAfter, scopeAfter, h.length_eq]

/-- A routine keeps its number when it is reordered, and the routines before it. It
comes behind all of its variables in any order. -/
theorem routineHandle_eq {r r' : Parsed.Routine} (hbefore : List.Forall₂ RoutineReordered rs rs')
    (hr : RoutineReordered r r') : routineHandle rs r = routineHandle rs' r' := by
  rw [routineHandle, routineHandle, extent_eq hbefore, hr.perm_variablesOf.length_eq]

end Programs

/-! ### The two numberings -/

section Numberings

variable {rs rs' : List Parsed.Routine} {before : List Parsed.Routine} {r : Parsed.Routine}
  {s : ScopeId} {name : String} {id : SymbolId} {symbol : Symbol}

/-- In the same scope the same name is bound to the same symbol. Only the number may be
another, and for a routine it is not. A variable is found at another position of the
same block, by `RoutineReordered.perm_variablesOf`. -/
theorem Binds.reordered (h : List.Forall₂ RoutineReordered rs rs')
    (hb : Binds rs s name id symbol) :
    ∃ id', Binds rs' s name id' symbol ∧ (s = Program.unitScope → id' = id) := by
  cases hb with
  | @ofRoutine before r hr =>
      obtain ⟨⟨before', r'⟩, hr', hbefore, hreordered⟩ := exists_partner (forall₂_withEarlier h) hr
      have hroutine : declaredRoutine r = declaredRoutine r' :=
        (congrArg declaredRoutine hreordered.bare_eq :)
      rw [hreordered.name_eq, hroutine, extent_eq hbefore, scopeAfter_eq hbefore]
      exact ⟨_, .ofRoutine hr', fun _ => (routineHandle_eq hbefore hreordered).symm⟩
  | @ofVariable before r k v hr hv =>
      obtain ⟨⟨before', r'⟩, hr', hbefore, hreordered⟩ := exists_partner (forall₂_withEarlier h) hr
      have hmem := hreordered.perm_variablesOf.mem_iff.mp (List.mem_of_getElem? hv)
      -- The variable is at some position of the other block.
      obtain ⟨k', hk'⟩ := List.getElem?_of_mem hmem
      rw [scopeAfter_eq hbefore]
      refine ⟨_, .ofVariable hr' hk', fun hunit => ?_⟩
      exact absurd (congrArg ScopeId.index hunit) (Nat.succ_ne_zero _)

/-- A scope binds the same numbers, though maybe to other names. For a variable these
are the positions in its block, and reordered routines have equally many variables. -/
theorem Binds.same_number (h : List.Forall₂ RoutineReordered rs rs')
    (hb : Binds rs s name id symbol) :
    ∃ name' symbol', Binds rs' s name' id symbol' := by
  cases hb with
  | @ofRoutine before r hr =>
      obtain ⟨id', hb', hid⟩ := Binds.reordered h (.ofRoutine hr)
      rw [← hid rfl]
      exact ⟨_, _, hb'⟩
  | @ofVariable before r k v hr hv =>
      obtain ⟨⟨before', r'⟩, hr', hbefore, hreordered⟩ := exists_partner (forall₂_withEarlier h) hr
      obtain ⟨hk, -⟩ := List.getElem?_eq_some_iff.mp hv
      rw [hreordered.perm_variablesOf.length_eq] at hk
      rw [scopeAfter_eq hbefore, extent_eq hbefore]
      exact ⟨_, _, .ofVariable hr' (List.getElem?_eq_getElem hk)⟩

end Numberings

section Declared

variable {t t' : Parsed.Program} {p p' : Program} {s : ScopeId} {name : String}
  {id id' : SymbolId} {symbol symbol' : Symbol}
  (h : List.Forall₂ RoutineReordered t.routines t'.routines)
  (hp : (declare t).outcome = .ok p) (hp' : (declare t').outcome = .ok p')

include h hp hp'

/-- A name that is bound in a program is bound in the reordered one, by
`Binds.reordered`. -/
theorem isSome_lookup_of_reordered (hsome : (p.table.lookup s name).isSome) :
    (p'.table.lookup s name).isSome := by
  obtain ⟨id, hl⟩ := Option.isSome_iff_exists.mp hsome
  obtain ⟨symbol, hb⟩ := exists_binds hp hl
  obtain ⟨id', hb', -⟩ := hb.reordered h
  exact Option.isSome_of_eq_some (hb'.lookup hp').1

/-- Reordered programs bind the same names, and to equally many symbols. So there is a
permutation that pairs their symbols off. -/
theorem bindsAlike_of_reordered : p.table.BindsAlike p'.table where
  built := built_of_declare hp
  built' := built_of_declare hp'
  symbolCount := by
    rw [(eq_layout_of_declare hp).1, (eq_layout_of_declare hp').1, symbolCount_layout,
      symbolCount_layout, extent_eq h]
  isSome_lookup s name :=
    ⟨isSome_lookup_of_reordered (h.flip.imp fun _ _ hr => hr.symm) hp' hp,
      isSome_lookup_of_reordered h hp hp'⟩

/-- The permutation takes what a name is bound to in the one program to what it is bound
to in the other. It was chosen by the names, so there is nothing else to know of it. -/
theorem perm_of_binds (hb : Binds t.routines s name id symbol)
    (hb' : Binds t'.routines s name id' symbol') :
    (bindsAlike_of_reordered h hp hp').perm id = id' := by
  have hl := (bindsAlike_of_reordered h hp hp').lookup_perm s name
  rw [(hb.lookup hp).1, (hb'.lookup hp').1] at hl
  exact (Option.some.inj hl).symm

/-- Reordered programs have the same list of routines, number by number. -/
theorem items_of_reordered : p'.items = p.items := by
  rw [(eq_layout_of_declare hp).1, (eq_layout_of_declare hp').1]
  refine (map_eq_map_of_forall₂ (forall₂_withEarlier h) ?_).symm
  rintro ⟨before, r⟩ ⟨before', r'⟩ ⟨hbefore, hr⟩
  exact routineHandle_eq hbefore hr

/-- The routines keep their numbers. -/
theorem perm_of_mem_items (hid : id ∈ p.items) :
    (bindsAlike_of_reordered h hp hp').perm id = id := by
  rw [(eq_layout_of_declare hp).1] at hid
  obtain ⟨⟨before, r⟩, hr, rfl⟩ := List.mem_map.mp hid
  obtain ⟨id', hb', hid'⟩ := Binds.reordered h (.ofRoutine hr)
  exact (perm_of_binds h hp hp' (.ofRoutine hr) hb').trans (hid' rfl)

/-- No symbol of a declared program changes with the numbers. A variable has none in it,
and the number in a function is that of its result, which is the first of its variables
in any order. -/
theorem renumber_of_binds (hb : Binds t.routines s name id symbol) :
    symbol.renumber (.ofPerm (bindsAlike_of_reordered h hp hp').perm) = symbol := by
  cases hb with
  | ofVariable hr hv => rfl
  | @ofRoutine before r hr =>
      refine congrArg Symbol.routine ?_
      refine (declaredRoutine_renumber _ r ⟨extent before⟩ (scopeAfter before)).symm.trans ?_
      cases hform : r.form with
      | subroutine => simp [declaredRoutine, kindOf, resultVariable?, hform, Renumbering.ofPerm]
      | function =>
          obtain ⟨⟨before', r'⟩, hr', hbefore, hreordered⟩ :=
            exists_partner (forall₂_withEarlier h) hr
          have hform' : r'.form = .function :=
            (congrArg Parsed.Routine.form hreordered.bare_eq).symm.trans hform
          have hresult := Binds.ofResult hr' hform'
          rw [← scopeAfter_eq hbefore, ← hreordered.name_eq, ← extent_eq hbefore] at hresult
          -- The result has the same number in both programs, so the permutation leaves it
          -- alone.
          have hfixed := perm_of_binds h hp hp' (.ofResult hr hform) hresult
          exact congrArg (declaredRoutine r · (scopeAfter before)) hfixed

/-- Reordered programs are declared as the same program, up to a permutation of the
numbers that takes each symbol to the one of its name in its scope. The lemmas above
give one field each, and `SameUpTo.run` carries the permutation over both passes. -/
theorem sameUpTo_of_reordered : p.SameUpTo (bindsAlike_of_reordered h hp hp').perm p' where
  scopeCount := by
    rw [(eq_layout_of_declare hp).1, (eq_layout_of_declare hp').1, scopeCount_layout,
      scopeCount_layout, h.length_eq]
  symbolCount := (bindsAlike_of_reordered h hp hp').symbolCount
  items := by
    have hfixed : p.items.map (bindsAlike_of_reordered h hp hp').perm = p.items.map fun id => id :=
      List.map_congr_left fun id hid => perm_of_mem_items h hp hp' hid
    rw [items_of_reordered h hp hp', hfixed, List.map_id']
  lookup := (bindsAlike_of_reordered h hp hp').lookup_perm
  symbol id := by
    obtain hlt | hle := Nat.lt_or_ge id.index p.table.symbolCount
    · obtain ⟨s, name, hl⟩ := (built_of_declare hp).exists_lookup_iff_lt.mpr hlt
      -- What is bound there is the same symbol in both programs.
      obtain ⟨symbol, hb⟩ := exists_binds hp hl
      obtain ⟨id', hb', -⟩ := hb.reordered h
      rw [perm_of_binds h hp hp' hb hb', (hb.lookup hp).2, (hb'.lookup hp').2, Option.map_some,
        renumber_of_binds h hp hp' hb]
    · -- Behind the last symbol there is none in either program.
      have hle' : p'.table.symbolCount ≤ id.index :=
        (bindsAlike_of_reordered h hp hp').symbolCount.trans_le hle
      rw [(bindsAlike_of_reordered h hp hp').perm_of_le hle, SymbolTable.symbol?_of_le hle,
        SymbolTable.symbol?_of_le hle']
      rfl

/-- The scopes of reordered programs bind the same numbers. One direction is shown for
any two such programs and then used in both, as the relation is symmetric. -/
theorem exists_lookup_of_reordered (s : ScopeId) (id : SymbolId) :
    (∃ name, p'.table.lookup s name = some id) ↔ ∃ name, p.table.lookup s name = some id := by
  have hone : ∀ {t t' : Parsed.Program} {p p' : Program},
      List.Forall₂ RoutineReordered t.routines t'.routines → (declare t).outcome = .ok p →
        (declare t').outcome = .ok p' → (∃ name, p.table.lookup s name = some id) →
          ∃ name, p'.table.lookup s name = some id := by
    intro t t' p p' h hp hp' hsome
    obtain ⟨name, hl⟩ := hsome
    obtain ⟨symbol, hb⟩ := exists_binds hp hl
    obtain ⟨name', symbol', hb'⟩ := hb.same_number h
    exact ⟨name', (hb'.lookup hp').1⟩
  exact ⟨hone (h.flip.imp fun _ _ hr => hr.symm) hp' hp, hone h hp hp'⟩

end Declared

/-! ### The analysis -/

section Analysed

variable {t t' : Parsed.Program} {p p' : Program} {σ : Equiv.Perm SymbolId}

/-- From programs that are the same up to a permutation the analysis goes on alike: its
passes succeed or fail with both, and leave programs that are the same up to this
permutation. The passes read the bare routines, which are equal. -/
theorem sameUpTo_of_passes (hsame : p.SameUpTo σ p')
    (hbare : t.routines.map bare = t'.routines.map bare) (options : Options) :
    (resolve options t' p').result.outcome = (resolve options t p).result.outcome ∧
      (link t' (resolve options t' p').program).result.outcome =
        (link t (resolve options t p).program).result.outcome ∧
      (link t (resolve options t p).program).program.SameUpTo σ
        (link t' (resolve options t' p').program).program := by
  rw [← resolve_eq_of_bare hbare, ← link_eq_of_bare hbare]
  simp only [resolve_eq_run, link_eq_run]
  have hresolved := hsame.run (bodies_renumbers options) t.routines
  exact ⟨hsame.outcome_run (bodies_renumbers options) t.routines,
    hresolved.outcome_run parameters_renumbers t.routines,
    hresolved.run parameters_renumbers t.routines⟩

/-- Two programs have the same routines under the same numbers and differ by a
permutation of the symbols of each scope. That the permutation does not mix scopes is
what `numbers` says. -/
structure Permuted (σ : Equiv.Perm SymbolId) (u u' : Program) : Prop where
  sameUpTo : u.SameUpTo σ u'
  items : u'.items = u.items
  fixed : ∀ id ∈ u.items, σ id = id
  /-- What a scope binds takes up the same numbers. -/
  numbers : ∀ s id,
    (∃ name, u'.table.lookup s name = some id) ↔ ∃ name, u.table.lookup s name = some id

/-- A program that is analysed is analysed in another order as well. What the
declaration gives is kept by the passes, since they change no skeleton. The permutation
is the one of `sameUpTo_of_reordered`, and the passes carry it to the end. -/
theorem exists_permuted (h : List.Forall₂ RoutineReordered t.routines t'.routines)
    {options : Options} {u : Program} (hu : (analyze options t).outcome = .ok u) :
    ∃ u', (analyze options t').outcome = .ok u' ∧ ∃ σ, Permuted σ u u' := by
  have hbare : t.routines.map bare = t'.routines.map bare :=
    map_eq_map_of_forall₂ h fun _ _ hr => hr.bare_eq
  obtain ⟨p, hp, hresolve, hlink, rfl⟩ := analyze_eq_ok_iff.mp hu
  obtain ⟨p', hp'⟩ : ∃ p', (declare t').outcome = .ok p' := by
    have hnone : declarationViolations t = [] := exists_declare_iff.mp ⟨p, hp⟩
    exact exists_declare_iff.mpr (List.nil_perm.mp (hnone ▸ perm_declarationViolations h))
  obtain ⟨hresolve', hlink', hsame⟩ :=
    sameUpTo_of_passes (sameUpTo_of_reordered h hp hp') hbare options
  -- The passes change neither what is bound nor the list of routines.
  have hkept := skeleton_afterSession p [.resolve options t, .link t]
  have hkept' := skeleton_afterSession p' [.resolve options t', .link t']
  have hitems := Program.items_congr hkept
  have hlookup := SymbolTable.lookup_congr (Program.table_skeleton_congr hkept)
  have hlookup' := SymbolTable.lookup_congr (Program.table_skeleton_congr hkept')
  refine ⟨_, analyze_eq_ok_iff.mpr ⟨p', hp', hresolve'.trans hresolve, hlink'.trans hlink, rfl⟩,
    _, hsame, ?_, ?_, ?_⟩
  · exact (Program.items_congr hkept').trans ((items_of_reordered h hp hp').trans hitems.symm)
  · intro id hid
    exact perm_of_mem_items h hp hp' (hitems ▸ hid)
  · intro s id
    have hnumbers := exists_lookup_of_reordered h hp hp' s id
    simp only [← hlookup, ← hlookup'] at hnumbers
    exact hnumbers

/-- The order of declarations does not matter, as long as declarations of one name keep
theirs. A program is analysed in both orders or in neither. If it is, there are the same
routines with the same scopes and numbers, every name of a routine stands for the same
variable, and all else is the same up to a permutation of the symbols that each scope
binds, which takes a symbol to the one of its name.

If it is not, the two diagnostics may be different ones, as another violation may come
first. `exists_permuted` is used in both directions, because the reordering of a program
can be undone. -/
theorem analyze_reordered (h : List.Forall₂ RoutineReordered t.routines t'.routines)
    (options : Options) :
    ((∃ u, (analyze options t).outcome = .ok u) ↔ ∃ u', (analyze options t').outcome = .ok u') ∧
      ∀ u u', (analyze options t).outcome = .ok u → (analyze options t').outcome = .ok u' →
        (∀ routine name, u'.variableOf? routine name = u.variableOf? routine name) ∧
          ∃ σ, Permuted σ u u' ∧ u'.routines = u.routines.map (·.renumber (.ofPerm σ)) := by
  refine ⟨⟨?_, ?_⟩, ?_⟩
  · rintro ⟨u, hu⟩
    obtain ⟨u', hu', -⟩ := exists_permuted h hu
    exact ⟨u', hu'⟩
  · rintro ⟨u', hu'⟩
    obtain ⟨u, hu, -⟩ := exists_permuted (h.flip.imp fun _ _ hr => hr.symm) hu'
    exact ⟨u, hu⟩
  · intro u u' hu hu'
    obtain ⟨other, hother, σ, hpermuted⟩ := exists_permuted h hu
    obtain rfl : other = u' := Except.ok.inj (hother.symm.trans hu')
    exact ⟨hpermuted.sameUpTo.variableOf?, σ, hpermuted, hpermuted.sameUpTo.routines⟩

end Analysed

/-- The declaration of an argument, with its intent. -/
def argument : Parsed.Declaration :=
  ⟨"x", "real", [⟨"intent", ["in"], .onLine 2 9 18⟩], .onLine 2 3 23⟩

/-- The declaration of a factor, which is no argument. -/
def factor : Parsed.Declaration := ⟨"w", "real", [], .onLine 3 3 11⟩

/-- A function with two declarations, and another one of its argument that is passed
over. That one stays behind the first of its name. -/
def weighted (first second : Parsed.Declaration) : Parsed.Routine where
  form := .function
  name := "weighted"
  parameters := [⟨"x", .onLine 1 19 19⟩]
  declarations := [first, second, ⟨"x", "complex", [], .onLine 4 3 14⟩]
  body := [.of (.name "w" (.onLine 5 3 3)) (.name "x" (.onLine 5 7 7))]
  binding := none
  location := .onLine 1 1 20

/-- With the factor declared first, it and the argument change numbers. In another
function all stays as it is. -/
theorem reordered_weighted :
    ∃ u u', (analyze {} ⟨[weighted argument factor, half]⟩).outcome = .ok u ∧
      (analyze {} ⟨[weighted factor argument, half]⟩).outcome = .ok u' ∧
      u.routines.map (·.references) = [[⟨2⟩, ⟨1⟩], [⟨4⟩, ⟨5⟩]] ∧
      u'.routines.map (·.references) = [[⟨1⟩, ⟨2⟩], [⟨4⟩, ⟨5⟩]] ∧
      (∀ routine name, u'.variableOf? routine name = u.variableOf? routine name) ∧
      ∃ σ, Permuted σ u u' ∧ u'.routines = u.routines.map (·.renumber (.ofPerm σ)) := by
  have hswap : RoutineReordered (weighted argument factor) (weighted factor argument) :=
    .of_swap (weighted argument factor) [] [⟨"x", "complex", [], .onLine 4 3 14⟩] (by decide)
  exact ⟨_, _, rfl, rfl, rfl, rfl,
    (analyze_reordered (t := ⟨[weighted argument factor, half]⟩)
      (.cons hswap (.cons (.refl half) .nil)) {}).2 _ _ rfl rfl⟩

end FortranFront.Analysis
