import FortranFront.Proofs.Renumbering
import Mathlib.Logic.Equiv.Defs

/-!
# `FortranFront.Proofs.Counterparts`: one program under two numberings

Two programs may declare the same symbols in another order. Then each symbol of the
one has a counterpart in the other, which is bound to the same name in the same
scope. A symbol is bound once, so this pairs the symbols off.

* `SymbolTable.BindsAlike.perm`: tables that bind the same names have their symbols
  paired off by a permutation.
* `Program.SameUpTo`: two programs are one up to a permutation of the numbers of
  their symbols, with all scopes as they are.
* `SameUpTo.finds` and `SameUpTo.modifyRoutine`: their routines and variables are
  found alike, and stay alike when counterparts are changed alike.
* `SameUpTo.outcome_run` and `SameUpTo.run`: so a pass succeeds or fails with both,
  and leaves programs that are the same up to the same permutation.
-/

set_option autoImplicit false

namespace FortranFront

/-- Symbols with new numbers, and scopes with their old ones. The lemmas of
`Proofs.Renumbering` then speak of permutations. -/
def Renumbering.ofPerm (σ : Equiv.Perm SymbolId) : Renumbering := ⟨fun s => s, σ⟩

/-! ### Symbols that are bound alike -/

namespace SymbolTable

variable {t t' : SymbolTable} {s : ScopeId} {name : String} {id : SymbolId}

open Classical in
/-- The symbol that another table binds where this one binds a symbol. What is bound
nowhere stays as it is. The place it is bound at is chosen, and in a built table there
is only one to choose. -/
noncomputable def counterpart (t t' : SymbolTable) (id : SymbolId) : SymbolId :=
  if h : ∃ key : ScopeId × String, t.lookup key.1 key.2 = some id then
    (t'.lookup h.choose.1 h.choose.2).getD id
  else id

/-- There are no symbols from the count on, so a handle there leads nowhere. -/
theorem symbol?_of_le (h : t.symbolCount ≤ id.index) : t.symbol? id = none :=
  Array.getElem?_eq_none h

/-- The symbols of a built table are those that it binds. No symbol is out of reach, and
no name leads to a handle without a symbol. -/
theorem Built.exists_lookup_iff_lt (h : t.Built) :
    (∃ s name, t.lookup s name = some id) ↔ id.index < t.symbolCount := by
  constructor
  · rintro ⟨s, name, hl⟩
    obtain ⟨symbol, hsymbol, -⟩ := h.symbol?_of_lookup hl
    exact lt_of_symbol? hsymbol
  · intro hlt
    obtain ⟨s, hl⟩ := h.exists_lookup (Array.getElem?_eq_getElem hlt)
    exact ⟨s, _, hl⟩

/-- Two tables that are built bind the same names, to equally many symbols. Nothing is
said of the symbols, and they may be quite different. -/
structure BindsAlike (t t' : SymbolTable) : Prop where
  built : t.Built
  built' : t'.Built
  symbolCount : t'.symbolCount = t.symbolCount
  isSome_lookup : ∀ s name, (t'.lookup s name).isSome ↔ (t.lookup s name).isSome

namespace BindsAlike

/-- What is bound in one of them is bound in the other, so they may change places. -/
theorem symm (h : BindsAlike t t') : BindsAlike t' t :=
  ⟨h.built', h.built, h.symbolCount.symm, fun s name => (h.isSome_lookup s name).symm⟩

/-- A name is bound to the counterpart of what it was bound to. In a built table the
symbol has no other name, so this name is the one that was chosen. -/
theorem lookup_counterpart (h : BindsAlike t t') (hl : t.lookup s name = some id) :
    t'.lookup s name = some (counterpart t t' id) := by
  have hbound : ∃ key : ScopeId × String, t.lookup key.1 key.2 = some id := ⟨(s, name), hl⟩
  -- The symbol is bound once, so the name chosen for it is this one.
  obtain ⟨hs, hname⟩ := h.built.lookup_inj hl hbound.choose_spec
  obtain ⟨id', hl'⟩ :=
    Option.isSome_iff_exists.mp ((h.isSome_lookup s name).mpr (Option.isSome_of_eq_some hl))
  rw [counterpart, dif_pos hbound, hs, hname, hl', Option.getD_some]

/-- What is bound nowhere is its own counterpart. This makes a permutation of all
handles out of one of the symbols. -/
theorem counterpart_of_le (h : BindsAlike t t') (hle : t.symbolCount ≤ id.index) :
    counterpart t t' id = id := by
  refine dif_neg ?_
  rintro ⟨key, hl⟩
  exact absurd (h.built.exists_lookup_iff_lt.mp ⟨_, _, hl⟩) (Nat.not_lt_of_le hle)

/-- The counterpart of the counterpart is the symbol itself, which lies at the same name
in the same scope. -/
theorem counterpart_counterpart (h : BindsAlike t t') (id : SymbolId) :
    counterpart t' t (counterpart t t' id) = id := by
  -- A symbol of the table is bound, and all other handles are left alone.
  obtain hlt | hle := Nat.lt_or_ge id.index t.symbolCount
  · obtain ⟨s, name, hl⟩ := h.built.exists_lookup_iff_lt.mpr hlt
    have hback := h.symm.lookup_counterpart (h.lookup_counterpart hl)
    rw [hl] at hback
    exact (Option.some.inj hback).symm
  · rw [h.counterpart_of_le hle, h.symm.counterpart_of_le (h.symbolCount.trans_le hle)]

/-- The symbols of tables that bind the same names are paired off. The inverse is the
counterpart the other way round. -/
noncomputable def perm (h : BindsAlike t t') : Equiv.Perm SymbolId where
  toFun := counterpart t t'
  invFun := counterpart t' t
  left_inv := h.counterpart_counterpart
  right_inv := h.symm.counterpart_counterpart

/-- What is bound nowhere is left in its place. -/
theorem perm_of_le (h : BindsAlike t t') (hle : t.symbolCount ≤ id.index) : h.perm id = id :=
  h.counterpart_of_le hle

/-- Every name leads to the counterpart of what it led to, and a name that led nowhere
leads nowhere. -/
theorem lookup_perm (h : BindsAlike t t') (s : ScopeId) (name : String) :
    t'.lookup s name = (t.lookup s name).map h.perm := by
  cases hl : t.lookup s name with
  | none =>
      have hnone := (h.isSome_lookup s name).not
      rw [hl] at hnone
      exact Option.not_isSome_iff_eq_none.mp (hnone.mpr Bool.false_ne_true)
  | some id => exact h.lookup_counterpart hl

end BindsAlike

end SymbolTable

/-! ### Programs up to a permutation -/

open Typed (Program)

/-- Two programs are the same up to the numbers of their symbols, which are those of the
one after a permutation in the other. Scopes keep their numbers. The order in which a
scope lists its names may be another, as it is only asked through `lookup`. -/
structure Typed.Program.SameUpTo (σ : Equiv.Perm SymbolId) (p p' : Program) : Prop where
  scopeCount : p'.table.scopeCount = p.table.scopeCount
  symbolCount : p'.table.symbolCount = p.table.symbolCount
  items : p'.items = p.items.map σ
  lookup : ∀ s name, p'.table.lookup s name = (p.table.lookup s name).map σ
  symbol : ∀ id, p'.table.symbol? (σ id) = (p.table.symbol? id).map (·.renumber (.ofPerm σ))

namespace Typed.Program.SameUpTo

open Analysis (FindsRenumbered)

variable {σ : Equiv.Perm SymbolId} {p p' : Program}

/-- Every name leads to counterparts. With this the lemmas on renumbered tables
apply. -/
theorem carries (h : SameUpTo σ p p') (s : ScopeId) (name : String) :
    SymbolTable.Carries (.ofPerm σ) p.table p'.table s name :=
  ⟨h.lookup s name, fun {id} _ => h.symbol id⟩

/-- Routines and their variables are found under their new numbers. A pass reads nothing
else of a table. So by `Filling.Renumbers` what it computes for one program is
renumbered what it computes for the other. -/
theorem finds (h : SameUpTo σ p p') (name : String) :
    FindsRenumbered (.ofPerm σ) p p' name where
  routine := (h.carries Program.unitScope name).findRoutine?
  locals {found} _ n := (h.carries found.2.scope n).findVariable?

/-- The routines are the same but for the numbers in them, and in the same order. -/
theorem routines (h : SameUpTo σ p p') :
    p'.routines = p.routines.map (·.renumber (.ofPerm σ)) := by
  unfold Program.routines
  rw [h.items, List.filterMap_map, List.map_filterMap]
  refine congrArg (List.filterMap · p.items) (funext fun id => ?_)
  show (p'.table.symbol? (σ id)).bind Symbol.toRoutine? = _
  rw [h.symbol]
  cases p.table.symbol? id with
  | none => rfl
  | some symbol => exact symbol.toRoutine?_renumber _

/-- A variable of a routine is the same, for it has no number in it. So names stand for
equal variables in both programs. The routine is found under a new number, and the scope
in which the name is looked up has its old one. -/
theorem variableOf? (h : SameUpTo σ p p') (routine name : String) :
    p'.variableOf? routine name = p.variableOf? routine name := by
  unfold Program.variableOf? Program.routine?
  rw [(h.finds routine).routine]
  cases hfound : p.findRoutine? routine with
  | none => rfl
  | some found =>
      show (p'.table.findVariable? found.2.scope name).bind _ =
        (p.table.findVariable? found.2.scope name).bind _
      have hvariable := (h.finds routine).locals hfound name
      rw [show p'.table.findVariable? found.2.scope name = _ from hvariable]
      cases p.table.findVariable? found.2.scope name <;> rfl

/-! ### Passes -/

/-- Counterparts that are changed alike stay counterparts. The change has to agree with
the renumbering, since the routine that is changed has been renumbered in the second
program. -/
theorem modifyRoutine (h : SameUpTo σ p p') (id : SymbolId)
    {f f' : Typed.Routine → Typed.Routine}
    (hf : ∀ r, f' (r.renumber (.ofPerm σ)) = (f r).renumber (.ofPerm σ)) :
    SameUpTo σ (p.modifyRoutine id f) (p'.modifyRoutine (σ id) f') where
  scopeCount := h.scopeCount
  symbolCount := by
    simpa [Program.modifyRoutine, SymbolTable.modify, SymbolTable.symbolCount] using h.symbolCount
  items := h.items
  lookup := h.lookup
  symbol i := by
    rw [Program.symbol?_modifyRoutine, Program.symbol?_modifyRoutine, h.symbol i]
    -- The permutation is injective, so just the counterpart of the changed routine is changed.
    by_cases hi : i = id
    · rw [if_pos (congrArg σ hi), if_pos hi]
      cases p.table.symbol? i with
      | none => rfl
      | some symbol =>
          cases symbol with
          | var v => rfl
          | routine r => exact congrArg (fun r => some (Symbol.routine r)) (hf r)
    · rw [if_neg fun heq => hi (σ.injective heq), if_neg hi]

section Filling

open Analysis (Filling Pass)

variable {α : Type} {F : Filling α} {renumber : Renumbering → α → α}

/-- Plans are carried out alike, one after the other. -/
theorem writeAll (h : SameUpTo σ p p') (hF : F.Renumbers renumber) (ws : List (SymbolId × α)) :
    SameUpTo σ (F.writeAll p ws)
      (F.writeAll p' (ws.map (Prod.map σ (renumber (.ofPerm σ))))) := by
  induction ws generalizing p p' with
  | nil => exact h
  | cons w rest ih => exact ih (h.modifyRoutine w.1 (hF.put (.ofPerm σ) w.2))

/-- A pass over both programs succeeds, or fails with the same diagnostic. No diagnostic
has a number in it, which is why the two outcomes are equal and not merely alike. -/
theorem outcome_run (h : SameUpTo σ p p') (hF : F.Renumbers renumber)
    (rs : List Parsed.Routine) :
    (Pass.run F.step p' rs).result.outcome = (Pass.run F.step p rs).result.outcome := by
  have hplan : ∀ r, (F.plan p' r).map (fun _ => ()) = (F.plan p r).map (fun _ => ()) := by
    intro r
    rw [hF.plan (h.finds r.name)]
    cases F.plan p r <;> rfl
  rw [F.outcome_run, F.outcome_run]
  simp only [hplan]

/-- A pass over both programs leaves programs that are the same up to the permutation,
also where it fails. The plans that are carried out are renumbered by
`Filling.Renumbers.writes`, and each of them is written to the counterpart of its
handle. -/
theorem run (h : SameUpTo σ p p') (hF : F.Renumbers renumber) (rs : List Parsed.Routine) :
    SameUpTo σ (Pass.run F.step p rs).program (Pass.run F.step p' rs).program := by
  have hfinds : ∀ r ∈ rs, FindsRenumbered (.ofPerm σ) p p' r.name := fun r _ => h.finds r.name
  rw [F.program_run, F.program_run, hF.writes hfinds]
  exact h.writeAll hF (F.writes p rs)

end Filling

end Typed.Program.SameUpTo

end FortranFront
