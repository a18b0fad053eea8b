import FortranFront.Analysis.Locals
import FortranFront.Proofs.Complaint

/-!
# `FortranFront.Proofs.Locals`: which declarations decide

The variables of a routine are collected in a growing list, and a declaration is
passed over if its name is in that list already. `deciding` says the same without
a list that grows: a declaration decides its name unless the name is the
function's own or an earlier declaration has it.

* `nodup_names_decidingAmong` and `mem_decidingAmong_of_find?`: no name is decided
  twice, and the first declaration of a free name is the one that decides it.
* `localsOf_eq_ok`: the variables of a routine are its result and those of its
  deciding declarations, in order.
* `KnownAfter.mem_names`: the names among them are the function's own name and the
  names that are declared, so passing declarations over loses no name.
* `complaint?_localsOf`: the variables are collected up to the first violation of
  a deciding declaration. What is wrong with the others is never seen.
-/

set_option autoImplicit false

namespace FortranFront.Analysis

open Typed (Variable)

/-- The names that are taken before the first declaration of a routine is read. It is a
list, so that it can be put beside the names that are declared. -/
def ownNames (r : Parsed.Routine) : List String :=
  match r.form with
  | .subroutine => []
  | .function => [r.name]

/-- Only the own name of a function is taken. -/
theorem mem_ownNames {r : Parsed.Routine} {name : String} :
    name ∈ ownNames r ↔ r.form = .function ∧ name = r.name := by
  unfold ownNames
  cases r.form <;> simp

/-- A declaration is passed over if its name is taken or an earlier declaration has it.
Unlike the collection of variables this looks at names only, and never at what an
earlier declaration has come to. -/
def IsPassedOver (taken : List String) (before : List Parsed.Declaration)
    (d : Parsed.Declaration) : Prop :=
  d.name ∈ taken ∨ d.name ∈ before.map (·.name)

instance (taken : List String) (before : List Parsed.Declaration) (d : Parsed.Declaration) :
    Decidable (IsPassedOver taken before d) :=
  inferInstanceAs (Decidable (d.name ∈ taken ∨ d.name ∈ before.map (·.name)))

/-- The declarations of a list that are not passed over. What decides about a
declaration are those before it, which `withEarlier` supplies. -/
def decidingAmong (taken : List String) (ds : List Parsed.Declaration) :
    List Parsed.Declaration :=
  ((withEarlier ds).filter fun (before, d) => ¬ IsPassedOver taken before d).map (·.2)

/-- The declarations of a routine that decide what their names stand for. Each of its
variables but the result comes from one of them. -/
def deciding (r : Parsed.Routine) : List Parsed.Declaration :=
  decidingAmong (ownNames r) r.declarations

/-! ### Deciding declarations -/

section Deciding

variable {taken : List String} {ds : List Parsed.Declaration} {d : Parsed.Declaration}

/-- One declaration more decides unless it is passed over. The others stay as they are,
so proofs about `decidingAmong` go from the end of the list. -/
theorem decidingAmong_append_singleton (taken : List String) (ds : List Parsed.Declaration)
    (d : Parsed.Declaration) :
    decidingAmong taken (ds ++ [d]) =
      decidingAmong taken ds ++ if IsPassedOver taken ds d then [] else [d] := by
  unfold decidingAmong
  rw [withEarlier_append_singleton, List.filter_append, List.map_append]
  by_cases h : IsPassedOver taken ds d <;> simp [h]

/-- Every declared name that is not taken is decided by one of the declarations. So
passing over declarations loses no name. The induction is on the last declaration, whose
name is new or is there already. -/
theorem mem_names_decidingAmong {n : String} :
    n ∈ (decidingAmong taken ds).map (·.name) ↔ n ∈ ds.map (·.name) ∧ n ∉ taken := by
  induction ds using List.reverseRecOn with
  | nil => simp [decidingAmong]
  | append_singleton ds d ih =>
      rw [decidingAmong_append_singleton, List.map_append, List.mem_append, ih]
      by_cases h : IsPassedOver taken ds d
      · -- The name of `d` is taken or among those before it already.
        rw [if_pos h, List.map_append, List.mem_append]
        constructor
        · rintro (hn | hn)
          · exact ⟨Or.inl hn.1, hn.2⟩
          · cases hn
        · rintro ⟨hn | hn, hfree⟩
          · exact Or.inl ⟨hn, hfree⟩
          · have hd : n = d.name := by simpa using hn
            subst hd
            exact Or.inl ⟨h.resolve_left hfree, hfree⟩
      · -- The last declaration decides, so its name is not taken.
        rw [if_neg h, List.map_append, List.mem_append]
        constructor
        · rintro (hn | hn)
          · exact ⟨Or.inl hn.1, hn.2⟩
          · have hd : n = d.name := by simpa using hn
            subst hd
            exact ⟨Or.inr hn, fun htaken => h (Or.inl htaken)⟩
        · rintro ⟨hn | hn, hfree⟩
          · exact Or.inl ⟨hn, hfree⟩
          · exact Or.inr hn

/-- No name is decided twice. A declaration that decides has a name that none before it
has, by `mem_names_decidingAmong`. It is for this reason that the scope of a routine can
bind all of its variables, and that none of them is refused. -/
theorem nodup_names_decidingAmong (taken : List String) (ds : List Parsed.Declaration) :
    ((decidingAmong taken ds).map (·.name)).Nodup := by
  induction ds using List.reverseRecOn with
  | nil => exact List.nodup_nil
  | append_singleton ds d ih =>
      rw [decidingAmong_append_singleton]
      by_cases h : IsPassedOver taken ds d
      · rwa [if_pos h, List.append_nil]
      · -- No declaration before `d` has its name, so none of the deciding ones has.
        have hnew : d.name ∉ (decidingAmong taken ds).map (·.name) := fun hmem =>
          h (.inr (mem_names_decidingAmong.mp hmem).1)
        rw [if_neg h, List.map_append, List.nodup_append]
        refine ⟨ih, by simp, fun n hn n' hn' => ?_⟩
        obtain rfl : n' = d.name := List.mem_singleton.mp hn'
        exact fun heq => hnew (heq ▸ hn)

/-- The first declaration of a name decides it, unless the name is taken. `find?` looks
from the front of the list and the induction goes from its end: either the name was
found earlier already, or only the last declaration has it. Statements that speak of the
first declaration of a name are turned into ones on deciding declarations by this. -/
theorem mem_decidingAmong_of_find? {n : String} (hfree : n ∉ taken)
    (hd : ds.find? (·.name = n) = some d) : d ∈ decidingAmong taken ds := by
  induction ds using List.reverseRecOn with
  | nil => cases hd
  | append_singleton ds d' ih =>
      rw [decidingAmong_append_singleton]
      rw [List.find?_append, Option.or_eq_some_iff] at hd
      obtain hearlier | ⟨hnone, hlast⟩ := hd
      · exact List.mem_append_left _ (ih hearlier)
      · -- Only the last declaration has the name.
        obtain ⟨hname, rfl⟩ : d'.name = n ∧ d' = d := by simpa using hlast
        have hfirst : ¬ IsPassedOver taken ds d' := by
          rintro (htaken | hdeclared)
          · exact hfree (hname ▸ htaken)
          · obtain ⟨e, he, hsame⟩ := List.mem_map.mp hdeclared
            have hother := List.find?_eq_none.mp hnone e he
            exact hother (by simpa using hsame.trans hname)
        rw [if_neg hfirst]
        exact List.mem_append_right _ List.mem_cons_self

-- The function's own name is taken, and the second `x` comes too late.
example :
    (decidingAmong ["f"] [⟨"x", "real", [], .nowhere⟩, ⟨"f", "real", [], .nowhere⟩,
      ⟨"x", "complex", [], .nowhere⟩, ⟨"y", "integer", [], .nowhere⟩]).map (·.name) =
      ["x", "y"] := by
  decide

/-- To judge the deciding declarations is to judge all of them and pass some over. The
second form is the one that `complaint?_foldlM` gives. -/
theorem flatMap_decidingAmong (v : Parsed.Declaration → List Diagnostic) :
    (decidingAmong taken ds).flatMap v =
      (withEarlier ds).flatMap fun (before, d) =>
        if IsPassedOver taken before d then [] else v d := by
  induction ds using List.reverseRecOn with
  | nil => rfl
  | append_singleton ds d ih =>
      rw [withEarlier_append_singleton, List.flatMap_append, ← ih,
        decidingAmong_append_singleton, List.flatMap_append]
      by_cases h : IsPassedOver taken ds d <;> simp [h]

end Deciding

/-! ### Variables -/

variable {r : Parsed.Routine} {known known' : List Variable} {d : Parsed.Declaration}
  {v : Variable}

/-- The variable of a declaration bears its name. The type and the intent may fail, and
then there is no variable. -/
theorem name_of_variableFor (h : variableFor d = .ok v) : v.name = d.name := by
  obtain ⟨type, -, hrest⟩ := bind_eq_ok_iff.mp h
  obtain ⟨intent, -, hlast⟩ := bind_eq_ok_iff.mp hrest
  cases hlast
  rfl

/-- So the variables of some declarations bear their names in order. -/
theorem names_of_variableFor {ds : List Parsed.Declaration} {vs : List Variable}
    (h : List.Forall₂ (fun d v => variableFor d = .ok v) ds vs) :
    vs.map (·.name) = ds.map (·.name) := by
  induction h with
  | nil => rfl
  | cons hv _ ih => rw [List.map_cons, List.map_cons, name_of_variableFor hv, ih]

/-- One step of the collection: a declaration whose name is known adds nothing, and any
other adds its variable at the end. Records are left aside. All that is said of the
collection later goes through this, and `declareLocal` itself is opened only here and
for its records. -/
theorem declareLocal_eq_ok_iff :
    (declareLocal known d).outcome = .ok known' ↔
      if d.name ∈ known.map (·.name) then known' = known
      else ∃ v, variableFor d = .ok v ∧ known' = known ++ [v] := by
  unfold declareLocal
  by_cases h : d.name ∈ known.map (·.name)
  · rw [if_pos h, if_pos h]
    constructor
    · intro hknown
      cases hknown
      rfl
    · rintro rfl
      rfl
  · -- The name is new, so the step is the computation of the variable.
    rw [if_neg h, if_neg h]
    simp only [Traced.outcome_bind, Traced.outcome_lift, Traced.outcome_log,
      Traced.outcome_pure]
    constructor
    · intro hrest
      obtain ⟨v, hv, hlast⟩ := bind_eq_ok_iff.mp hrest
      cases hlast
      exact ⟨v, hv, rfl⟩
    · rintro ⟨v, hv, rfl⟩
      exact bind_eq_ok_iff.mpr ⟨v, hv, rfl⟩

/-- The implicit result takes the function's own name and no other. A subroutine has no
result and takes none. -/
theorem names_resultVariable? (r : Parsed.Routine) :
    (resultVariable? r).toList.map (·.name) = ownNames r := by
  unfold resultVariable? ownNames
  cases r.form <;> rfl

/-- The variables known after some declarations are the result and those of the deciding
ones among them. This is the invariant of the collection. -/
def KnownAfter (r : Parsed.Routine) (before : List Parsed.Declaration)
    (known : List Variable) : Prop :=
  ∃ vs, known = (resultVariable? r).toList ++ vs ∧
    List.Forall₂ (fun d v => variableFor d = .ok v) (decidingAmong (ownNames r) before) vs

namespace KnownAfter

variable {before : List Parsed.Declaration}

/-- A name is known if it is the function's own or was declared. The deciding
declarations have all declared names but those that are taken, and these are known from
the start. So what is known can be told from the source alone, without the variables. -/
theorem mem_names (h : KnownAfter r before known) (n : String) :
    n ∈ known.map (·.name) ↔ n ∈ ownNames r ∨ n ∈ before.map (·.name) := by
  obtain ⟨vs, rfl, hvs⟩ := h
  have hnames := names_of_variableFor hvs
  rw [List.map_append, List.mem_append, names_resultVariable?, hnames, mem_names_decidingAmong]
  tauto

/-- A declaration is passed over by the collection exactly if it does not decide. This
is where the state of the collection is traded for the names before the declaration. -/
theorem mem_names_iff_isPassedOver (h : KnownAfter r before known) :
    d.name ∈ known.map (·.name) ↔ IsPassedOver (ownNames r) before d :=
  h.mem_names d.name

/-- The property is kept by the step that reads one declaration more. Both sides get
longer or stay as they are for the same reason, by `mem_names_iff_isPassedOver`. This is
the step of the invariant that `localsOf_eq_ok` carries through the walk. -/
theorem step (h : KnownAfter r before known)
    (hstep : (declareLocal known d).outcome = .ok known') :
    KnownAfter r (before ++ [d]) known' := by
  rw [declareLocal_eq_ok_iff] at hstep
  unfold KnownAfter
  rw [decidingAmong_append_singleton]
  by_cases hd : d.name ∈ known.map (·.name)
  · -- Neither the collection nor the deciding declarations get longer.
    rw [if_pos hd] at hstep
    subst hstep
    rw [if_pos (h.mem_names_iff_isPassedOver.mp hd), List.append_nil]
    exact h
  · -- The variable goes to the end of the one and its declaration to the end of the other.
    rw [if_neg hd] at hstep
    obtain ⟨v, hv, rfl⟩ := hstep
    rw [if_neg fun hp => hd (h.mem_names_iff_isPassedOver.mpr hp)]
    obtain ⟨vs, rfl, hvs⟩ := h
    refine ⟨vs ++ [v], List.append_assoc _ _ _, ?_⟩
    exact List.rel_append hvs (.cons hv .nil)

end KnownAfter

/-- The variables of a routine are its result and those of its deciding declarations. It
is the invariant at the end of the collection, which starts with the result alone. Later
modules use `KnownAfter` and do not go back to the collection. -/
theorem localsOf_eq_ok {locals : List Variable} (h : (localsOf r).outcome = .ok locals) :
    KnownAfter r r.declarations locals := by
  rw [localsOf, Traced.outcome_foldlM] at h
  exact foldlM_invariant (KnownAfter r) (fun _ _ _ _ hinv hstep => hinv.step hstep)
    ⟨[], (List.append_nil _).symm, .nil⟩ h

/-- If `v` lists the violations of a single declaration, then the collection of the
variables of a routine reports the first violation of a deciding declaration. The list
`v` is a parameter, so the collection need not be looked at again when the checks of a
declaration change. -/
theorem complaint?_localsOf {v : Parsed.Declaration → List Diagnostic}
    (hv : ∀ d, complaint? (variableFor d) = (v d).head?) :
    complaint? (localsOf r).outcome = ((deciding r).flatMap v).head? := by
  rw [localsOf, Traced.outcome_foldlM, deciding, flatMap_decidingAmong]
  refine complaint?_foldlM (KnownAfter r)
    (fun before d => if IsPassedOver (ownNames r) before d then [] else v d)
    (fun _ _ _ _ hinv hstep => hinv.step hstep) (fun before known d hinv => ?_)
    ⟨[], (List.append_nil _).symm, .nil⟩
  unfold declareLocal
  by_cases hd : d.name ∈ known.map (·.name)
  · -- The declaration is not read, so nothing can be wrong with it.
    rw [if_pos hd, if_pos (hinv.mem_names_iff_isPassedOver.mp hd)]
    rfl
  · rw [if_neg hd, if_neg fun hp => hd (hinv.mem_names_iff_isPassedOver.mpr hp), ← hv]
    simp only [Traced.outcome_bind, Traced.outcome_lift, Traced.outcome_log,
      Traced.outcome_pure]
    cases variableFor d <;> rfl

end FortranFront.Analysis
