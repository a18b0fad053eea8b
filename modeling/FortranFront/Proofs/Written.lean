import FortranFront.Proofs.Declared
import FortranFront.Proofs.Resolves

/-!
# `FortranFront.Proofs.Written`: what a pass writes into each routine

A pass carries out a list of plans, each of which names the handle it writes to.
`Filling.written` collects what a list of plans does to one handle.

* `symbol?_writeAll`: after a list of plans, the symbol of a handle is the old one
  with what was written to that handle.
* `written_of_last`: what was put in last is there at the end.
* `written_of_nodup`: if no handle is written to twice, that is a single part.
* `symbol?_run`: so if a pass over all routines of a declared program succeeds, each
  routine gets the part that was planned for it and no part of another routine.
-/

set_option autoImplicit false

namespace FortranFront.Typed

/-- Two changes to a symbol are one change. The later one is applied to what the earlier
one has left. -/
theorem Symbol.mapRoutine_mapRoutine (f g : Routine → Routine) (s : Symbol) :
    (s.mapRoutine f).mapRoutine g = s.mapRoutine fun r => g (f r) := by
  cases s <;> rfl

/-- No change to the routine is no change to the symbol. -/
@[simp] theorem Symbol.mapRoutine_id (s : Symbol) : s.mapRoutine (fun r => r) = s := by
  cases s <;> rfl

end FortranFront.Typed

namespace FortranFront.Analysis

open Typed (Program)

namespace Filling

variable {α : Type} (F : Filling α)

/-- A routine after all that a list of plans writes to its handle, in order. Plans for
other handles are filtered out first, so this is a function of the routine alone. -/
def written (ws : List (SymbolId × α)) (id : SymbolId) (routine : Typed.Routine) :
    Typed.Routine :=
  (ws.filter fun w => w.1 = id).foldl (fun routine w => F.put w.2 routine) routine

/-- A list of plans writes to each handle what it has for that handle. The induction is
on the plans with the program left free, as each plan changes it. So the order of plans
for different handles does not matter, and of plans for one handle the later ones are
put in last. -/
theorem symbol?_writeAll (p : Program) (ws : List (SymbolId × α)) (id : SymbolId) :
    (F.writeAll p ws).table.symbol? id =
      (p.table.symbol? id).map (·.mapRoutine (F.written ws id)) := by
  induction ws generalizing p with
  | nil =>
      show p.table.symbol? id = (p.table.symbol? id).map (·.mapRoutine fun routine => routine)
      simp
  | cons w rest ih =>
      have hrest : (F.writeAll p (w :: rest)).table.symbol? id =
          ((p.modifyRoutine w.1 (F.put w.2)).table.symbol? id).map
            (·.mapRoutine (F.written rest id)) :=
        ih (p.modifyRoutine w.1 (F.put w.2))
      rw [hrest, Program.symbol?_modifyRoutine]
      by_cases hid : id = w.1
      · -- What `w` puts in is there before the rest is written.
        have hwritten : F.written (w :: rest) id =
            fun routine => F.written rest id (F.put w.2 routine) := by
          funext routine
          simp [written, hid]
        rw [if_pos hid, Option.map_map, hwritten]
        exact congrArg (Option.map · _) (funext fun s => s.mapRoutine_mapRoutine _ _)
      · -- `w` is for another handle and leaves this one alone.
        have hwritten : F.written (w :: rest) id = F.written rest id := by
          funext routine
          simp [written, Ne.symm hid]
        rw [if_neg hid, hwritten]

/-- Plans in a row are carried out one after the other, on the program that the first of
them have left. -/
theorem writeAll_append (p : Program) (ws vs : List (SymbolId × α)) :
    F.writeAll p (ws ++ vs) = F.writeAll (F.writeAll p ws) vs :=
  List.foldl_append

/-- Plans in a row write one after the other, also when only one handle is looked at. -/
theorem written_append (ws vs : List (SymbolId × α)) (id : SymbolId) (routine : Typed.Routine) :
    F.written (ws ++ vs) id routine = F.written vs id (F.written ws id routine) := by
  simp [written]

/-- Plans for other handles write nothing, so the routine is what it was. -/
theorem written_of_forall_ne {ws : List (SymbolId × α)} {id : SymbolId}
    (h : ∀ w ∈ ws, w.1 ≠ id) (routine : Typed.Routine) : F.written ws id routine = routine := by
  have hfilter : ws.filter (fun w => w.1 = id) = [] := by
    rw [List.filter_eq_nil_iff]
    intro w hw
    simpa using h w hw
  simp [written, hfilter]

/-- A part that is put in last replaces all that was written before. It rests on the law
`put_put` of a filling. -/
theorem put_written (x : α) (ws : List (SymbolId × α)) (id : SymbolId)
    (routine : Typed.Routine) : F.put x (F.written ws id routine) = F.put x routine := by
  unfold written
  generalize ws.filter (fun w => w.1 = id) = parts
  induction parts generalizing routine with
  | nil => rfl
  | cons w rest ih =>
      rw [List.foldl_cons, ih]
      exact F.put_put x w.2 routine

/-- The last plan for a handle decides what is written to it. Plans after it are for
other handles, and those before it are overwritten, as `put_written` says of any list of
them. -/
theorem written_of_last {ws vs : List (SymbolId × α)} {id : SymbolId} {x : α}
    (hlast : ∀ w ∈ vs, w.1 ≠ id) (routine : Typed.Routine) :
    F.written (ws ++ (id, x) :: vs) id routine = F.put x routine := by
  have hcons : F.written ((id, x) :: vs) id (F.written ws id routine) =
      F.written vs id (F.put x (F.written ws id routine)) := by
    simp [written]
  rw [written_append, hcons, written_of_forall_ne F hlast, put_written]

/-- If a handle occurs once, what is written to it is the part that comes with it,
whatever the other plans are. -/
theorem written_of_nodup {ws : List (SymbolId × α)} {id : SymbolId} {x : α}
    (hnodup : (ws.map (·.1)).Nodup) (hw : (id, x) ∈ ws) : F.written ws id = F.put x := by
  obtain ⟨before, after, rfl⟩ := List.append_of_mem hw
  have hafter : ∀ w ∈ after, w.1 ≠ id := by
    rw [List.map_append, List.map_cons] at hnodup
    have hfresh := (List.nodup_cons.mp hnodup.of_append_right).1
    rintro w hmem rfl
    exact hfresh (List.mem_map.mpr ⟨w, hmem, rfl⟩)
  funext routine
  exact F.written_of_last hafter routine

/-- Where every plan can be made, the plans that are carried out are one for each
routine. The order is that of the routines. -/
theorem forall₂_writes {p : Program} {rs : List Parsed.Routine}
    (h : ∀ r ∈ rs, ∃ w, F.plan p r = .ok w) :
    List.Forall₂ (fun r w => F.plan p r = .ok w) rs (F.writes p rs) := by
  induction rs with
  | nil => exact .nil
  | cons r rest ih =>
      obtain ⟨w, hw⟩ := h r List.mem_cons_self
      have hwrites : F.writes p (r :: rest) = w :: F.writes p rest := by simp [writes, hw]
      rw [hwrites]
      exact .cons hw (ih fun r' hr' => h r' (List.mem_cons_of_mem r hr'))

/-- Plans that can be made for all of some routines are all carried out. This gives
`writes` in closed form where the plans are known. -/
theorem writes_eq_of_forall₂ {p : Program} {rs : List Parsed.Routine} {ws : List (SymbolId × α)}
    (h : List.Forall₂ (fun r w => F.plan p r = .ok w) rs ws) : F.writes p rs = ws := by
  induction h with
  | nil => rfl
  | cons hw _ ih => simp [writes, hw, ih]

/-- Where the plans for some routines can be made, those for the routines after them
follow. Otherwise the pass would stop before it comes to the later routines. -/
theorem writes_append {p : Program} {rs later : List Parsed.Routine}
    (h : ∀ r ∈ rs, ∃ w, F.plan p r = .ok w) :
    F.writes p (rs ++ later) = F.writes p rs ++ F.writes p later := by
  induction rs with
  | nil => rfl
  | cons r rest ih =>
      obtain ⟨w, hw⟩ := h r List.mem_cons_self
      have hrest := ih fun r' hr' => h r' (List.mem_cons_of_mem r hr')
      simp [writes, hw, hrest]

/-- Where every plan can be made, each of them is carried out. A plan is unique, so the
one in the list is the one given. -/
theorem mem_writes {p : Program} {rs : List Parsed.Routine} {r : Parsed.Routine}
    {w : SymbolId × α} (h : ∀ r ∈ rs, ∃ w, F.plan p r = .ok w) (hr : r ∈ rs)
    (hw : F.plan p r = .ok w) : w ∈ F.writes p rs := by
  obtain ⟨w', hmem, hw'⟩ := exists_partner (F.forall₂_writes h) hr
  have heq : w = w' := Except.ok.inj (hw.symm.trans hw')
  rw [heq]
  exact hmem

/-- A pass succeeds if every plan can be made. All plans are made on the program before
the pass, by `outcome_run`. -/
theorem outcome_run_eq_ok_iff {p : Program} {rs : List Parsed.Routine} :
    (Pass.run F.step p rs).result.outcome = .ok () ↔ ∀ r ∈ rs, ∃ w, F.plan p r = .ok w := by
  rw [F.outcome_run, forM_eq_ok_iff]
  have hplan : ∀ r, (F.plan p r).map (fun _ => ()) = .ok () ↔ ∃ w, F.plan p r = .ok w := by
    intro r
    cases F.plan p r <;> simp [Except.map]
  simp only [hplan]

/-- A plan for a routine that was declared under a handle writes to that handle, since
the routine is found under its name. -/
theorem fst_of_plan {p : Program} {r : Parsed.Routine} {id : SymbolId} {w : SymbolId × α}
    (hid : DeclaredAs p.table r id) (hw : F.plan p r = .ok w) : w.1 = id := by
  obtain ⟨first, scope, hsymbol, -⟩ := hid.routine
  obtain ⟨routine, hfound, -⟩ := plan_eq_ok_iff.mp hw
  rw [hid.findRoutine? hsymbol] at hfound
  cases hfound
  rfl

/-- If a pass over all routines of a declared program succeeds, it puts into each
routine just the part that was planned for it, whatever had been filled in before the
pass. The handles of the routines are different (`nodup_items`), so no routine is
written to twice. -/
theorem symbol?_run {p q : Program} {rs : List Parsed.Routine} {r : Parsed.Routine}
    {id : SymbolId} (h : DeclaredFrom rs p) (hq : q.skeleton = p.skeleton)
    (hok : (Pass.run F.step q rs).result.outcome = .ok ()) (hr : r ∈ rs)
    (hid : DeclaredAs p.table r id) :
    ∃ x, F.plan p r = .ok (id, x) ∧
      (Pass.run F.step q rs).program.table.symbol? id =
        (q.table.symbol? id).map (·.mapRoutine (F.put x)) := by
  -- The pass works on `q`, but all its plans can be made on `p`.
  have hplans : ∀ r ∈ rs, ∃ w, F.plan p r = .ok w := by
    intro r hr
    rw [← F.plan_congr hq]
    exact F.outcome_run_eq_ok_iff.mp hok r hr
  have hwrites := F.forall₂_writes hplans
  -- The routines are written to in order, each once, since their handles differ.
  have hhandles : (F.writes p rs).map (·.1) = p.items := by
    apply List.ext_getElem
    · rw [List.length_map, ← hwrites.length_eq, h.items.length_eq]
    · intro i hi hi'
      have hlt : i < rs.length := h.items.length_eq ▸ hi'
      have hlt' : i < (F.writes p rs).length := hwrites.length_eq ▸ hlt
      rw [List.getElem_map]
      exact F.fst_of_plan (h.items.get hlt hi') (hwrites.get hlt hlt')
  obtain ⟨⟨id', x⟩, hplan⟩ := hplans r hr
  obtain rfl : id' = id := F.fst_of_plan hid hplan
  have hnodup : ((F.writes p rs).map (·.1)).Nodup := hhandles ▸ h.nodup_items
  refine ⟨x, hplan, ?_⟩
  have hwritten := F.written_of_nodup hnodup (F.mem_writes hplans hr hplan)
  rw [F.program_run_of_skeleton hq, symbol?_writeAll, hwritten]

end Filling

end FortranFront.Analysis
