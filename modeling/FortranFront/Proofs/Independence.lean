import FortranFront.Proofs.Sessions
import FortranFront.Proofs.Written

/-!
# `FortranFront.Proofs.Independence`: passes do not see what passes write

What a pass plans depends on the skeleton of a program, and a pass keeps the
skeleton. So it makes no difference to a pass whether another one has been there
before it, or the pass itself. What two passes leave together does not depend on
their order either, since they write to different parts of a routine.

* `written_cases`: all the writes to one handle come down to one write or to none.
* `Filling.program_run_comm`: passes that fill in parts which do not touch can
  trade places.
* `Filling.run_run`: a pass that is run again does what it did before.
* `passes_commute_and_repeat`: both for the resolution of bodies and the linking
  of parameters, however they end.
-/

set_option autoImplicit false

namespace FortranFront.Typed

/-- Programs of one skeleton are the same if they have the same symbols. The scopes and
the items are part of the skeleton (`scopes_congr`, `items_congr`), but the symbols are
there without parameters and bodies, so they have to be compared besides. It is how two
programs are shown equal that passes have led to. -/
theorem Program.ext_of_skeleton {p q : Program} (h : p.skeleton = q.skeleton)
    (hsymbol : ∀ id, p.table.symbol? id = q.table.symbol? id) : p = q := by
  have hscopes := SymbolTable.scopes_congr (Program.table_skeleton_congr h)
  have hitems := Program.items_congr h
  have hsymbols : p.table.symbols = q.table.symbols :=
    Array.ext_getElem? fun i => hsymbol ⟨i⟩
  obtain ⟨⟨scopes, symbols⟩, items⟩ := p
  obtain ⟨⟨scopes', symbols'⟩, items'⟩ := q
  change scopes = scopes' at hscopes
  change symbols = symbols' at hsymbols
  change items = items' at hitems
  rw [hscopes, hsymbols, hitems]

end FortranFront.Typed

namespace FortranFront.Analysis

open Typed (Program)

/-- Two passes with the same program and the same result are the same. What was read and
recorded is part of the result, so there is nothing else to compare. -/
theorem Pass.ext {a b : Pass} (hprogram : a.program = b.program) (hresult : a.result = b.result) :
    a = b := by
  obtain ⟨program, result⟩ := a
  obtain ⟨program', result'⟩ := b
  cases hprogram
  cases hresult
  rfl

namespace Filling

variable {α β : Type} (F : Filling α) (G : Filling β)

/-- A list of plans leaves a handle alone or puts in one part there. Earlier parts do
not show, since each is overwritten by the next (`written_of_last`). The induction is on
the last plan, because it is the one that decides. -/
theorem written_cases (ws : List (SymbolId × α)) (id : SymbolId) :
    (∀ routine, F.written ws id routine = routine) ∨
      ∃ x, ∀ routine, F.written ws id routine = F.put x routine := by
  induction ws using List.reverseRecOn with
  | nil => exact .inl fun routine => rfl
  | append_singleton ws w ih =>
      by_cases hid : w.1 = id
      · -- The last plan decides.
        subst hid
        exact .inr ⟨w.2, fun routine => F.written_of_last (fun _ hw => by cases hw) routine⟩
      · -- A plan for another handle is passed over, so the plans before it decide.
        have hw : ∀ routine, F.written (ws ++ [w]) id routine = F.written ws id routine := by
          intro routine
          rw [F.written_append]
          exact F.written_of_forall_ne (by simpa using hid) _
        simpa only [hw] using ih

/-- To write all plans once more changes nothing. By `written_cases` they amount to one
write at each handle, and a second write of a part replaces the first (`put_put`). -/
theorem written_written (ws : List (SymbolId × α)) (id : SymbolId) (routine : Typed.Routine) :
    F.written ws id (F.written ws id routine) = F.written ws id routine := by
  obtain hnone | ⟨x, hx⟩ := F.written_cases ws id
  · rw [hnone, hnone]
  · rw [hx, hx, F.put_put]

/-- Writes to parts that do not touch can trade places. This is asked of `put` for one
part each, in `hput`. For whole lists of plans it follows by `written_cases`, which
leaves one part of each kind at most. -/
theorem written_comm
    (hput : ∀ x y routine, F.put x (G.put y routine) = G.put y (F.put x routine))
    (ws : List (SymbolId × α)) (vs : List (SymbolId × β)) (id : SymbolId)
    (routine : Typed.Routine) :
    F.written ws id (G.written vs id routine) = G.written vs id (F.written ws id routine) := by
  obtain hnone | ⟨x, hx⟩ := F.written_cases ws id
  · rw [hnone, hnone]
  · obtain hnone' | ⟨y, hy⟩ := G.written_cases vs id
    · rw [hnone', hnone']
    · rw [hx, hx, hy, hy, hput]

/-- The symbols after a pass over a program that another pass may have changed before.
The plans that are written are those made on `p`, since a plan depends on the skeleton
alone. What they are written into are the symbols of `q`. -/
theorem symbol?_run_of_skeleton {p q : Program} (h : q.skeleton = p.skeleton)
    (rs : List Parsed.Routine) (id : SymbolId) :
    (Pass.run F.step q rs).program.table.symbol? id =
      (q.table.symbol? id).map (·.mapRoutine (F.written (F.writes p rs) id)) := by
  rw [F.program_run_of_skeleton h, symbol?_writeAll]

/-- Passes that fill in parts which do not touch leave the same program in either order.
Neither order is the original one, so both are compared with plans that were all made on
`p`, the program before either pass. What is left is the order of the writes, and
`written_comm` says that it makes no difference. -/
theorem program_run_comm
    (hput : ∀ x y routine, F.put x (G.put y routine) = G.put y (F.put x routine))
    (p : Program) (rs rs' : List Parsed.Routine) :
    (Pass.run F.step (Pass.run G.step p rs').program rs).program =
      (Pass.run G.step (Pass.run F.step p rs).program rs').program := by
  -- A pass keeps the skeleton, so each pass meets the skeleton of `p` in either order.
  have hF := F.skeleton_run p rs
  have hG := G.skeleton_run p rs'
  have hlast : (Pass.run F.step (Pass.run G.step p rs').program rs).program.skeleton =
      p.skeleton :=
    (F.skeleton_run _ rs).trans hG
  have hlast' : (Pass.run G.step (Pass.run F.step p rs).program rs').program.skeleton =
      p.skeleton :=
    (G.skeleton_run _ rs').trans hF
  refine Program.ext_of_skeleton (hlast.trans hlast'.symm) fun id => ?_
  rw [F.symbol?_run_of_skeleton hG, G.symbol?_run_of_skeleton rfl,
    G.symbol?_run_of_skeleton hF, F.symbol?_run_of_skeleton rfl]
  -- All plans were made on `p`, and at each handle they are carried out in the two orders.
  cases p.table.symbol? id with
  | none => rfl
  | some symbol =>
      simp only [Option.map_some, Typed.Symbol.mapRoutine_mapRoutine, F.written_comm G hput]

/-- A pass that is run again with the same routines has the same result and leaves the
program as it is. Its result depends on the skeleton, which it has kept, and what it
writes is there already by `written_written`. -/
theorem run_run (p : Program) (rs : List Parsed.Routine) :
    Pass.run F.step (Pass.run F.step p rs).program rs = Pass.run F.step p rs := by
  have hskeleton := F.skeleton_run p rs
  refine Pass.ext ?_ (F.result_run_of_skeleton hskeleton rs)
  refine Program.ext_of_skeleton (F.skeleton_run _ rs) fun id => ?_
  rw [F.symbol?_run_of_skeleton hskeleton, F.symbol?_run_of_skeleton rfl]
  cases p.table.symbol? id with
  | none => rfl
  | some symbol =>
      simp only [Option.map_some, Typed.Symbol.mapRoutine_mapRoutine, F.written_written]

end Filling

/-- Resolution and linking do not see each other. Run in either order on any program,
each of them has the same result with the same records, and the program they leave is
the same, even if one or both of them fail on the way. A pass that is run again at once
has the result it had and leaves the program it left.

Nothing is asked of the program, which need not have come from a declaration, nor of the
two parsed programs, which may differ. Both passes are fillings (`bodies` and
`parameters`), and all that is used of them is that one puts in bodies and the other
parameters. -/
theorem passes_commute_and_repeat (options : Options) (t₁ t₂ : Parsed.Program) (p : Program) :
    ((resolve options t₁ (link t₂ p).program).result = (resolve options t₁ p).result ∧
      (link t₂ (resolve options t₁ p).program).result = (link t₂ p).result ∧
      (link t₂ (resolve options t₁ p).program).program =
        (resolve options t₁ (link t₂ p).program).program) ∧
    resolve options t₁ (resolve options t₁ p).program = resolve options t₁ p ∧
    link t₂ (link t₂ p).program = link t₂ p := by
  simp only [resolve_eq_run, link_eq_run]
  refine ⟨⟨?_, ?_, ?_⟩, ?_, ?_⟩
  · exact (bodies options).result_run_of_skeleton (parameters.skeleton_run p _) _
  · exact parameters.result_run_of_skeleton ((bodies options).skeleton_run p _) _
  · -- One pass writes the parameters of a routine and the other its body.
    exact parameters.program_run_comm (bodies options) (fun _ _ _ => rfl) p _ _
  · exact (bodies options).run_run p _
  · exact parameters.run_run p _

end FortranFront.Analysis
