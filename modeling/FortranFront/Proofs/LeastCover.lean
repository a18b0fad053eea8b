import FortranFront.Proofs.Covering
import Mathlib.Data.List.Induction
import Mathlib.Order.Bounds.Basic

/-!
# `FortranFront.Proofs.LeastCover`: many locations merged

Locations are ordered by what they cover, whether or not they start before they end. In
this order two locations merged are the least that covers both, so merging is a join. A
list of locations may be merged in many ways: from the left, from the right, or in groups
that are merged first. What comes out is the least location that covers all of the list,
so neither the groups matter nor the order of the list nor how often a location is in it.

* `MergedFrom`: the locations that a list can be merged to.
* `mergedFrom_foldl`, `mergedFrom_mergeRight`: one of them comes from merging from the left,
  and one from merging from the right.
* `MergedFrom.isLUB`: each of them is the least that covers the list.
* `merge_is_join`: so they are all the same, and merging is associative, commutative and
  idempotent.
-/

set_option autoImplicit false

namespace FortranFront

namespace Location

/-- A location is below those that cover it, and two locations merged are their join. -/
instance : SemilatticeSup Location where
  -- The order of starts is turned round here, and that of ends is not.
  le a b := b.Covers a
  le_refl := Covers.refl
  le_trans _ _ _ hab hbc := hbc.trans hab
  le_antisymm a b hab hba := by
    have hfirst : a.first = b.first := le_antisymm hba.1 hab.1
    have hlast : a.last = b.last := le_antisymm hab.2 hba.2
    cases a
    cases b
    cases hfirst
    cases hlast
    rfl
  sup := merge
  le_sup_left := covers_merge_left
  le_sup_right := covers_merge_right
  sup_le _ _ _ ha hb := ⟨le_min ha.1 hb.1, max_le ha.2 hb.2⟩

/-- What covers two locations covers them merged, so no smaller location would do. -/
theorem covers_merge {outer a b : Location} (ha : outer.Covers a) (hb : outer.Covers b) :
    outer.Covers (a.merge b) := by
  show a ⊔ b ≤ outer
  exact sup_le ha hb

/-! ### Lists of locations -/

/-- A list of locations can be merged to a location. The list is taken as it is, and any
groups of neighbours may be merged first. Lists without members cannot be merged. -/
inductive MergedFrom : List Location → Location → Prop
  | single (a : Location) : MergedFrom [a] a
  | merge {before after : List Location} {a b : Location} (hbefore : MergedFrom before a)
      (hafter : MergedFrom after b) : MergedFrom (before ++ after) (a.merge b)

/-- Merges a location and those after it from the right, so the last two are merged
first. -/
def mergeRight (first : Location) : List Location → Location
  | [] => first
  | next :: rest => first.merge (mergeRight next rest)

/-- Merging from the left is one way to merge a list. The induction is from the end of
the list, where a fold does its last step. Being one way among others is all that is
needed to compare it with any other way. -/
theorem mergedFrom_foldl (first : Location) (rest : List Location) :
    MergedFrom (first :: rest) (rest.foldl merge first) := by
  induction rest using List.reverseRecOn with
  | nil => exact .single first
  | append_singleton rest last ih =>
      rw [List.foldl_append]
      exact ih.merge (.single last)

/-- Merging from the right is another. -/
theorem mergedFrom_mergeRight (first : Location) (rest : List Location) :
    MergedFrom (first :: rest) (mergeRight first rest) := by
  induction rest generalizing first with
  | nil => exact .single first
  | cons next rest ih => exact (MergedFrom.single first).merge (ih next)

/-- A list merged in any way is the least location that covers all of it. The groups are
joins of their own members, and a join of joins is the join of all. The induction is on
the way in which the list was merged. -/
theorem MergedFrom.isLUB {locations : List Location} {merged : Location}
    (h : MergedFrom locations merged) : IsLUB {a | a ∈ locations} merged := by
  induction h with
  | single a =>
      have hset : {b | b ∈ [a]} = {a} := Set.ext fun _ => List.mem_singleton
      rw [hset]
      exact isLUB_singleton
  | @merge before after a b _ _ ihbefore ihafter =>
      have hset : {c | c ∈ before ++ after} = {c | c ∈ before} ∪ {c | c ∈ after} :=
        Set.ext fun _ => List.mem_append
      rw [hset]
      exact ihbefore.union ihafter

/-- Two lists of the same locations are merged to the same, each in any way, because a
least upper bound is unique. -/
theorem MergedFrom.eq {locations others : List Location} {a b : Location}
    (hsame : ∀ c, c ∈ locations ↔ c ∈ others) (ha : MergedFrom locations a)
    (hb : MergedFrom others b) : a = b := by
  have hset : {c | c ∈ locations} = {c | c ∈ others} := Set.ext hsame
  have hleast := ha.isLUB
  rw [hset] at hleast
  exact hleast.unique hb.isLUB

/-- Two locations merged cover both, and whatever covers both covers them merged. So
merging is associative, commutative and idempotent. Merging a list from the left and
from the right comes to the same, and so does any other way to merge it, or to merge any
list with the same members, be they in another order or there more than once.

None of the locations need start before it ends. The first four parts are those of a
semilattice, and the others are the uniqueness of a least upper bound, by
`MergedFrom.isLUB`. -/
theorem merge_is_join :
    (∀ a b : Location, (a.merge b).Covers a ∧ (a.merge b).Covers b ∧
      ∀ outer : Location, outer.Covers a → outer.Covers b → outer.Covers (a.merge b)) ∧
    (∀ a b c : Location, (a.merge b).merge c = a.merge (b.merge c)) ∧
    (∀ a b : Location, a.merge b = b.merge a) ∧
    (∀ a : Location, a.merge a = a) ∧
    (∀ (first : Location) (rest : List Location),
      MergedFrom (first :: rest) (rest.foldl merge first) ∧
      MergedFrom (first :: rest) (mergeRight first rest) ∧
      mergeRight first rest = rest.foldl merge first) ∧
    (∀ (locations others : List Location) (a b : Location),
      (∀ c, c ∈ locations ↔ c ∈ others) → MergedFrom locations a → MergedFrom others b →
        a = b) := by
  refine ⟨?_, ?_, ?_, ?_, ?_, ?_⟩
  · intro a b
    exact ⟨covers_merge_left a b, covers_merge_right a b, fun _ => covers_merge⟩
  · exact sup_assoc
  · exact sup_comm
  · exact sup_idem
  · intro first rest
    have hleft := mergedFrom_foldl first rest
    have hright := mergedFrom_mergeRight first rest
    exact ⟨hleft, hright, hright.eq (fun _ => Iff.rfl) hleft⟩
  · intro locations others a b hsame ha hb
    exact ha.eq hsame hb

/-- A location on one line, one that ends before it starts, and one over three lines.
Their ends come in no order. -/
def scattered : List Location :=
  [.onLine 3 5 9, ⟨⟨4, 8⟩, ⟨2, 1⟩⟩, ⟨⟨3, 2⟩, ⟨5, 1⟩⟩]

/-- Merged in another order, with one of them taken twice and in groups, they come to
the same. -/
theorem merge_scattered :
    scattered.tail.foldl merge (.onLine 3 5 9) =
      ((⟨⟨3, 2⟩, ⟨5, 1⟩⟩ : Location).merge (.onLine 3 5 9)).merge
        ((⟨⟨4, 8⟩, ⟨2, 1⟩⟩ : Location).merge (.onLine 3 5 9)) ∧
    scattered.tail.foldl merge (.onLine 3 5 9) = ⟨⟨3, 2⟩, ⟨5, 1⟩⟩ ∧
    (⟨⟨3, 2⟩, ⟨5, 1⟩⟩ : Location).Covers (Location.merge (.onLine 3 5 9) ⟨⟨4, 8⟩, ⟨2, 1⟩⟩) := by
  obtain ⟨hcovers, -, -, -, hfolds, hsame⟩ := merge_is_join
  refine ⟨?_, by decide, ?_⟩
  · refine hsame _ _ _ _ ?_ (hfolds _ scattered.tail).1
      (((MergedFrom.single _).merge (.single _)).merge ((MergedFrom.single _).merge (.single _)))
    intro c
    simp [scattered]
    tauto
  · exact (hcovers _ _).2.2 _ (by decide) (by decide)

end Location

end FortranFront
