import FortranFront.Trace
import Mathlib.Data.List.Forall2
import Mathlib.Data.List.Infix

/-!
# `FortranFront.Proofs.Complaint`: outcomes against lists of violations

The analysis stops at the first thing that is wrong. A specification lists
everything that is wrong. The two meet in `complaint?`, the diagnostic an outcome
ends with, if any. A computation agrees with a list of violations when its
complaint is the head of the list. That one equation says that it succeeds
exactly when the list is empty, and which violation it reports otherwise.

* `complaint?_bind`: two computations in a row agree with two lists in a row, and
  `bind_eq_ok_iff` and `bind_eq_error_iff` say how they end.
* `complaint?_mapM` and `complaint?_forM`: a walk over a list agrees with the
  violations of its elements, one element after the other. `mapM_eq_ok_iff` and
  `forM_eq_ok_iff` say when there are none, and what is collected then, and
  `exists_of_mapM_eq_error` and `exists_of_forM_eq_error` where a walk stops otherwise.
* `complaint?_foldlM`: the same for a walk that carries a state, where the
  violations of an element depend on the elements before it. An invariant ties
  the state to the elements seen so far.
* `withEarlier`: the elements of a list, each with those before it. It replaces
  the state in the specifications.
* `Traced.outcome_mapM` and `Traced.outcome_foldlM`: a walk that leaves records
  has the outcome of the same walk without them.
-/

set_option autoImplicit false

namespace FortranFront

variable {α β σ : Type}

/-- The diagnostic an outcome ends with, and none if it has a value. It forgets the
value, so outcomes of any two types can be compared by it. -/
def complaint? : Except Diagnostic α → Option Diagnostic
  | .ok _ => none
  | .error e => some e

@[simp] theorem complaint?_ok (a : α) : complaint? (.ok a) = none := rfl

@[simp] theorem complaint?_error (e : Diagnostic) :
    complaint? (.error e : Except Diagnostic α) = some e := rfl

@[simp] theorem complaint?_map (f : α → β) (x : Except Diagnostic α) :
    complaint? (x.map f) = complaint? x := by
  cases x <;> rfl

/-! ### The checks -/

@[simp] theorem complaint?_blameNone (d : Defect) (location : Location) (o : Option α) :
    complaint? (d.blameNone location o) = if o.isNone then some ⟨d, location⟩ else none := by
  cases o <;> rfl

@[simp] theorem complaint?_blameUnless (d : Defect) (location : Location) (c : Prop)
    [Decidable c] :
    complaint? (d.blameUnless location c) = if c then none else some ⟨d, location⟩ := by
  unfold Defect.blameUnless
  split <;> rfl

/-- A lookup that blames its failure has a value exactly where there is one. What would
be blamed plays no part, so this rewrites a lookup away. -/
theorem blameNone_eq_ok_iff {d : Defect} {location : Location} {o : Option α} {a : α} :
    d.blameNone location o = .ok a ↔ o = some a := by
  cases o <;> simp [Defect.blameNone]

/-- Such a lookup fails exactly where there is none, and blames that. With
`blameNone_eq_ok_iff` it says all that a traced lookup can do. -/
theorem blameNone_eq_error_iff {d : Defect} {location : Location} {o : Option α}
    {e : Diagnostic} : d.blameNone location o = .error e ↔ o = none ∧ e = ⟨d, location⟩ := by
  cases o <;> simp [Defect.blameNone, eq_comm]

/-- A check that blames its failure succeeds exactly where its condition holds. The
condition can then be used as it is stated in the model. -/
theorem blameUnless_eq_ok_iff {d : Defect} {location : Location} {c : Prop} [Decidable c] :
    d.blameUnless location c = .ok () ↔ c := by
  unfold Defect.blameUnless
  split <;> simp [*]

/-- A check that blames its failure fails exactly where its condition does not hold. -/
theorem blameUnless_eq_error_iff {d : Defect} {location : Location} {c : Prop} [Decidable c]
    {e : Diagnostic} : d.blameUnless location c = .error e ↔ ¬ c ∧ e = ⟨d, location⟩ := by
  unfold Defect.blameUnless
  split <;> simp [*, eq_comm]

/-! ### Computations in a row -/

/-- A computation in a row has a value only through a value of its first part.
Successful runs are taken apart by this, step by step, without unfolding anything. -/
theorem bind_eq_ok_iff {x : Except Diagnostic α} {f : α → Except Diagnostic β} {b : β} :
    x.bind f = .ok b ↔ ∃ a, x = .ok a ∧ f a = .ok b := by
  cases x <;> simp [Except.bind]

/-- A computation in a row fails in its first part, or in its second on a value of the
first. It is the counterpart of `bind_eq_ok_iff` for runs that fail. -/
theorem bind_eq_error_iff {x : Except Diagnostic α} {f : α → Except Diagnostic β}
    {e : Diagnostic} : x.bind f = .error e ↔ x = .error e ∨ ∃ a, x = .ok a ∧ f a = .error e := by
  cases x <;> simp [Except.bind]

/-- Changing the value of a computation does not change how it fails. -/
theorem map_eq_error_iff {x : Except Diagnostic α} {f : α → β} {e : Diagnostic} :
    x.map f = .error e ↔ x = .error e := by
  cases x <;> simp [Except.map]

/-- If the first computation agrees with `v`, and the second with `w` on every value it
can be given, then both in a row agree with `v ++ w`. The second list must not depend on
the value, which is why the specifications in `Proofs/Violations` are stated without
one. -/
theorem complaint?_bind {x : Except Diagnostic α} {f : α → Except Diagnostic β}
    {v w : List Diagnostic} (hx : complaint? x = v.head?)
    (hf : ∀ a, x = .ok a → complaint? (f a) = w.head?) :
    complaint? (x.bind f) = (v ++ w).head? := by
  cases x with
  | error e =>
      -- The second computation is not reached, and `e` is the first of `v`.
      have hv : v.head? = some e := hx.symm
      simp [Except.bind, hv]
  | ok a =>
      -- `v` is empty, so the first of `v ++ w` is the first of `w`.
      have hv : v.head? = none := hx.symm
      rw [List.head?_append, hv, Option.none_or]
      exact hf a rfl

/-- In two related lists each element of the first has a partner in the second.
Membership of the partner is part of it, so that more can be known of it. -/
theorem exists_partner {R : α → β → Prop} {xs : List α} {ys : List β} {x : α}
    (h : List.Forall₂ R xs ys) (hx : x ∈ xs) : ∃ y ∈ ys, R x y := by
  induction h with
  | nil => cases hx
  | @cons x' y' xs' ys' hxy _ ih =>
      rcases List.mem_cons.mp hx with rfl | hrest
      · exact ⟨y', List.mem_cons_self, hxy⟩
      · obtain ⟨y, hy, hR⟩ := ih hrest
        exact ⟨y, List.mem_cons_of_mem y' hy, hR⟩

/-- In two related lists each element of the second has a partner in the first. It is
`exists_partner` read from the other side. -/
theorem exists_source {R : α → β → Prop} {xs : List α} {ys : List β} {y : β}
    (h : List.Forall₂ R xs ys) (hy : y ∈ ys) : ∃ x ∈ xs, R x y :=
  exists_partner h.flip hy

/-- Related lists have the same image if related elements have. -/
theorem map_eq_map_of_forall₂ {γ : Type} {R : α → β → Prop} {xs : List α} {ys : List β}
    {f : α → γ} {g : β → γ} (h : List.Forall₂ R xs ys) (hfg : ∀ x y, R x y → f x = g y) :
    xs.map f = ys.map g := by
  induction h with
  | nil => rfl
  | cons hxy _ ih => rw [List.map_cons, List.map_cons, hfg _ _ hxy, ih]

/-- A walk that collects values succeeds with one value for each element in order. The
induction is on the elements, and both sides are split at the first of them. Bodies are
resolved and dummy arguments are linked by such walks, so what they come to is stated by
`List.Forall₂` from here on. -/
theorem mapM_eq_ok_iff {f : α → Except Diagnostic β} {xs : List α} {ys : List β} :
    xs.mapM f = .ok ys ↔ List.Forall₂ (fun x y => f x = .ok y) xs ys := by
  induction xs generalizing ys with
  | nil =>
      rw [List.mapM_nil, List.forall₂_nil_left_iff]
      constructor
      · intro h
        cases h
        rfl
      · rintro rfl
        rfl
  | cons x xs ih =>
      rw [List.mapM_cons, List.forall₂_cons_left_iff]
      -- The walk is two binds in a row, the value of `x` and then the values of `xs`.
      constructor
      · intro h
        obtain ⟨y, hy, hrest⟩ := bind_eq_ok_iff.mp h
        obtain ⟨ys', hys, hlast⟩ := bind_eq_ok_iff.mp hrest
        cases hlast
        exact ⟨y, ys', hy, ih.mp hys, rfl⟩
      · rintro ⟨y, ys', hy, hys, rfl⟩
        exact bind_eq_ok_iff.mpr ⟨y, hy, bind_eq_ok_iff.mpr ⟨ys', ih.mpr hys, rfl⟩⟩

/-- A walk stops at an element that fails after others that do not. The values of the
others are there as well, since later proofs look at what was collected before the
failure. -/
theorem exists_of_mapM_eq_error {f : α → Except Diagnostic β} {xs : List α} {e : Diagnostic}
    (h : xs.mapM f = .error e) :
    ∃ earlier x later ys, xs = earlier ++ x :: later ∧ earlier.mapM f = .ok ys ∧
      f x = .error e := by
  induction xs with
  | nil => cases h
  | cons x xs ih =>
      rw [List.mapM_cons] at h
      cases hx : f x with
      | error e' =>
          rw [hx] at h
          exact ⟨[], x, xs, [], rfl, rfl, by rw [hx, Except.error.inj h]⟩
      | ok y =>
          -- The first element does not fail, so one of the others does.
          have hrest : xs.mapM f = .error e := by
            rw [hx] at h
            cases hxs : xs.mapM f with
            | error e' => rw [hxs] at h; rw [Except.error.inj h]
            | ok ys => rw [hxs] at h; cases h
          obtain ⟨earlier, x', later, ys, rfl, hearlier, hstop⟩ := ih hrest
          exact ⟨x :: earlier, x', later, y :: ys, rfl,
            mapM_eq_ok_iff.mpr (.cons hx (mapM_eq_ok_iff.mp hearlier)), hstop⟩

/-- A walk that collects values succeeds if there is a value for every element. It is
`mapM_eq_ok_iff` for those who have the values one at a time and not in a list. -/
theorem exists_mapM_eq_ok {f : α → Except Diagnostic β} {xs : List α}
    (h : ∀ x ∈ xs, ∃ y, f x = .ok y) : ∃ ys, xs.mapM f = .ok ys := by
  induction xs with
  | nil => exact ⟨[], rfl⟩
  | cons x xs ih =>
      obtain ⟨y, hy⟩ := h x List.mem_cons_self
      obtain ⟨ys, hys⟩ := ih fun x' hx' => h x' (List.mem_cons_of_mem x hx')
      exact ⟨y :: ys, mapM_eq_ok_iff.mpr (.cons hy (mapM_eq_ok_iff.mp hys))⟩

/-- A walk that only checks succeeds if every element passes. No values are collected,
so there is no list to relate to. The check of the dummy arguments is such a walk, and
so is a pass once its writes are left out (`Filling.outcome_run`). -/
theorem forM_eq_ok_iff {f : α → Except Diagnostic Unit} {xs : List α} :
    xs.forM f = .ok () ↔ ∀ x ∈ xs, f x = .ok () := by
  induction xs with
  | nil =>
      constructor
      · intro _ x hx
        cases hx
      · intro _
        rfl
  | cons x xs ih =>
      rw [List.forall_mem_cons, ← ih]
      -- The walk is one bind of its first check with the walk over the others.
      constructor
      · intro h
        obtain ⟨_, hx, hrest⟩ := bind_eq_ok_iff.mp h
        exact ⟨hx, hrest⟩
      · rintro ⟨hx, hrest⟩
        exact bind_eq_ok_iff.mpr ⟨(), hx, hrest⟩

/-- A walk that only checks fails at one of the elements. Which of several is the first
is said by `complaint?_forM`. -/
theorem exists_of_forM_eq_error {f : α → Except Diagnostic Unit} {xs : List α} {e : Diagnostic}
    (h : xs.forM f = .error e) : ∃ x ∈ xs, f x = .error e := by
  induction xs with
  | nil => cases h
  | cons x xs ih =>
      rcases bind_eq_error_iff.mp h with hx | ⟨_, -, hrest⟩
      · exact ⟨x, List.mem_cons_self, hx⟩
      · obtain ⟨y, hy, hfail⟩ := ih hrest
        exact ⟨y, List.mem_cons_of_mem x hy, hfail⟩

/-- A walk that collects a value for each element agrees with the violations of the
elements in order. Only elements of the list have to agree with their violations, so the
hypothesis may use that they are there. The induction is on the list, and
`complaint?_bind` does the step: a walk that has failed looks at no further element. -/
theorem complaint?_mapM {f : α → Except Diagnostic β} {v : α → List Diagnostic}
    {xs : List α} (h : ∀ x ∈ xs, complaint? (f x) = (v x).head?) :
    complaint? (xs.mapM f) = (xs.flatMap v).head? := by
  induction xs with
  | nil => rfl
  | cons x xs ih =>
      have hrest := ih fun y hy => h y (List.mem_cons_of_mem x hy)
      rw [List.mapM_cons, List.flatMap_cons]
      refine complaint?_bind (h x List.mem_cons_self) fun b _ => ?_
      -- Collecting the value of `x` in front of the others adds no complaint.
      show complaint? ((xs.mapM f).bind fun bs => .ok (b :: bs)) = _
      rw [← List.append_nil (xs.flatMap v)]
      exact complaint?_bind hrest fun _ _ => rfl

/-- A walk that only checks agrees with the violations of the elements in order. It is
`complaint?_mapM` without values to collect. -/
theorem complaint?_forM {f : α → Except Diagnostic Unit} {v : α → List Diagnostic}
    {xs : List α} (h : ∀ x ∈ xs, complaint? (f x) = (v x).head?) :
    complaint? (xs.forM f) = (xs.flatMap v).head? := by
  induction xs with
  | nil => rfl
  | cons x xs ih =>
      rw [List.flatMap_cons]
      exact complaint?_bind (h x List.mem_cons_self) fun _ _ =>
        ih fun y hy => h y (List.mem_cons_of_mem x hy)

/-- A walk that keeps only the value of the last element agrees with the violations of the
elements in order, since it computes the others all the same. -/
theorem complaint?_foldlM_last {f : α → Except Diagnostic σ} {v : α → List Diagnostic}
    (h : ∀ x, complaint? (f x) = (v x).head?) (xs : List α) (s : σ) :
    complaint? (xs.foldlM (fun _ x => f x) s) = (xs.flatMap v).head? := by
  induction xs generalizing s with
  | nil => rfl
  | cons x xs ih =>
      rw [List.foldlM_cons, List.flatMap_cons]
      -- No step reads the state, so the hypothesis serves for whatever `x` has left.
      exact complaint?_bind (h x) fun s' _ => ih s'

/-- A walk in which no step reads the state ends in the value of the last element. The
induction is on the last element, and what the walk has before it does not matter.
Intents are read in this way, and this is why the last one counts. -/
theorem foldlM_last_eq_ok {f : α → Except Diagnostic σ} {xs : List α} {s s' : σ}
    (h : xs.foldlM (fun _ x => f x) s = .ok s') :
    match xs.getLast? with
    | none => s' = s
    | some x => f x = .ok s' := by
  induction xs using List.reverseRecOn with
  | nil =>
      cases h
      rfl
  | append_singleton xs x _ =>
      rw [List.foldlM_append] at h
      obtain ⟨middle, -, hlast⟩ := bind_eq_ok_iff.mp h
      rw [List.foldlM_cons] at hlast
      obtain ⟨last, hx, hnil⟩ := bind_eq_ok_iff.mp hlast
      -- The walk over the last element alone ends with its value.
      cases hnil
      rw [List.getLast?_append]
      exact hx

/-! ### Walks that carry a state -/

/-- Every element of a list with the elements before it. A walk with a state sees the
earlier elements through its state, and a specification sees them through this list. -/
def withEarlier (xs : List α) : List (List α × α) := xs.inits.zip xs

@[simp] theorem withEarlier_nil : withEarlier ([] : List α) = [] := rfl

/-- The first element has none before it, and every other one has it there. A proof
along the list goes by this equation. -/
theorem withEarlier_cons (x : α) (xs : List α) :
    withEarlier (x :: xs) = ([], x) :: (withEarlier xs).map (Prod.map (x :: ·) id) := by
  unfold withEarlier
  rw [List.inits_cons, List.zip_cons_cons, List.zip_map_left]

/-- The last element has all the others before it, and they keep what they had. A proof
from the end of the list goes by this equation, as most do, since earlier elements do
not change when a list is extended. -/
theorem withEarlier_append_singleton (xs : List α) (x : α) :
    withEarlier (xs ++ [x]) = withEarlier xs ++ [(xs, x)] := by
  induction xs with
  | nil => rfl
  | cons y xs ih =>
      rw [List.cons_append, withEarlier_cons, withEarlier_cons, ih, List.map_append]
      rfl

/-- The elements of a second list have those of the first before them as well. Two
programs that are put together are described by this. -/
theorem withEarlier_append (xs ys : List α) :
    withEarlier (xs ++ ys) = withEarlier xs ++ (withEarlier ys).map (Prod.map (xs ++ ·) id) := by
  induction ys using List.reverseRecOn with
  | nil => simp
  | append_singleton ys y ih =>
      rw [← List.append_assoc, withEarlier_append_singleton, withEarlier_append_singleton, ih,
        List.map_append, List.append_assoc]
      rfl

/-- Wherever a list is split, the element after the split comes with all those before it. -/
theorem withEarlier_split (before : List α) (x : α) (after : List α) :
    ∃ rest, withEarlier (before ++ x :: after) = withEarlier before ++ (before, x) :: rest := by
  refine ⟨((withEarlier after).map (Prod.map (x :: ·) id)).map (Prod.map (before ++ ·) id), ?_⟩
  rw [withEarlier_append, withEarlier_cons, List.map_cons]
  simp

/-- The elements that come with those before them are the splits of a list. With this a
member of `withEarlier` is traded for an equation about the list, and a routine can be
taken out of its program together with what comes before and after it. -/
theorem mem_withEarlier {before xs : List α} {x : α} :
    (before, x) ∈ withEarlier xs ↔ ∃ after, xs = before ++ x :: after := by
  constructor
  · intro h
    induction xs using List.reverseRecOn with
    | nil => cases h
    | append_singleton xs y ih =>
        rw [withEarlier_append_singleton, List.mem_append] at h
        obtain hold | hnew := h
        · -- The split of the shorter list is one of the longer list.
          obtain ⟨after, rfl⟩ := ih hold
          exact ⟨after ++ [y], by simp⟩
        · -- The new element has the whole shorter list before it.
          obtain ⟨rfl, rfl⟩ := Prod.mk.inj (List.mem_singleton.mp hnew)
          exact ⟨[], rfl⟩
  · rintro ⟨after, rfl⟩
    obtain ⟨rest, hsplit⟩ := withEarlier_split before x after
    rw [hsplit]
    exact List.mem_append_right _ List.mem_cons_self

/-- What holds of the start for no element, and is kept by each step for one element
more, holds of the end for all elements. The invariant speaks of the elements seen so
far, so the induction is on the end of the list. All invariants of declarations are
proved by it. -/
theorem foldlM_invariant {f : σ → α → Except Diagnostic σ} (Inv : List α → σ → Prop)
    (step : ∀ before s x s', Inv before s → f s x = .ok s' → Inv (before ++ [x]) s')
    {xs : List α} {s s' : σ} (start : Inv [] s) (h : xs.foldlM f s = .ok s') : Inv xs s' := by
  -- The elements are taken off at the end: the invariant speaks of all those before one.
  induction xs using List.reverseRecOn generalizing s' with
  | nil =>
      cases h
      exact start
  | append_singleton xs x ih =>
      rw [List.foldlM_append] at h
      obtain ⟨middle, hmiddle, hlast⟩ := bind_eq_ok_iff.mp h
      rw [List.foldlM_cons] at hlast
      obtain ⟨last, hx, hnil⟩ := bind_eq_ok_iff.mp hlast
      cases hnil
      exact step xs middle x _ (ih hmiddle) hx

/-- A walk that carries a state agrees with the violations of the elements in order,
each element judged by the elements before it. The invariant ties the state to these:
`step` keeps it along the walk, and `agrees` may use it at each element. Both loops of
the declaration are walks of this kind, over the declarations of a routine and over the
routines. -/
theorem complaint?_foldlM {f : σ → α → Except Diagnostic σ} (Inv : List α → σ → Prop)
    (v : List α → α → List Diagnostic)
    (step : ∀ before s x s', Inv before s → f s x = .ok s' → Inv (before ++ [x]) s')
    (agrees : ∀ before s x, Inv before s → complaint? (f s x) = (v before x).head?)
    {xs : List α} {s : σ} (start : Inv [] s) :
    complaint? (xs.foldlM f s) =
      ((withEarlier xs).flatMap fun (before, x) => v before x).head? := by
  induction xs using List.reverseRecOn with
  | nil => rfl
  | append_singleton xs x ih =>
      rw [List.foldlM_append, withEarlier_append_singleton, List.flatMap_append]
      refine complaint?_bind ih fun middle hmiddle => ?_
      -- The walk has come as far as `x`, so the invariant holds where `x` is judged.
      have hx := agrees xs middle x (foldlM_invariant Inv step start hmiddle)
      show complaint? ((f middle x).bind fun s' => .ok s') = _
      simpa using complaint?_bind (w := []) hx fun _ _ => rfl

/-! ### Walks that leave records -/

/-- The outcome of a walk that collects values does not depend on the records. After
this the lemmas on walks in `Except` apply. -/
theorem Traced.outcome_mapM (f : α → Traced β) (xs : List α) :
    (xs.mapM f).outcome = xs.mapM fun x => (f x).outcome := by
  induction xs with
  | nil => rfl
  | cons x xs ih =>
      rw [List.mapM_cons, List.mapM_cons, outcome_bind]
      show Except.bind _ _ = Except.bind _ _
      congr 1
      funext b
      rw [outcome_bind, ih]
      rfl

/-- The outcome of a walk that carries a state does not depend on the records. After
this the lemmas on walks in `Except` apply. -/
theorem Traced.outcome_foldlM (f : σ → α → Traced σ) (xs : List α) (s : σ) :
    (xs.foldlM f s).outcome = xs.foldlM (fun s x => (f s x).outcome) s := by
  induction xs generalizing s with
  | nil => rfl
  | cons x xs ih =>
      rw [List.foldlM_cons, List.foldlM_cons, outcome_bind]
      show Except.bind _ _ = Except.bind _ _
      congr 1
      funext s'
      exact ih s'

end FortranFront
