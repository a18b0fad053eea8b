import FortranFront.Parsed.Program
import FortranFront.Trace
import FortranFront.Typed.Program

/-!
# `FortranFront.Analysis.Pass`: working through a program routine by routine

A pass reads the routines of a parsed program one after the other and changes a
typed program at each of them. It stops at the first failure, and what it did
before that stays done. The parsed program need not be the one that the typed
program was declared from, so a routine is looked up by its name each time.
-/

set_option autoImplicit false

namespace FortranFront.Analysis

/-- What a pass leaves behind: the program as far as it came, and its result. The
program is there also if the pass has failed, since a caller may look at it. -/
structure Pass where
  program : Typed.Program
  result : Traced Unit

namespace Pass

/-- Applies a step at each routine until one fails. Each step starts from what the one
before it has left. A step that fails leaves its records and no change. -/
def run (step : Typed.Program → Parsed.Routine → Traced Typed.Program) (p : Typed.Program) :
    List Parsed.Routine → Pass
  | [] => ⟨p, pure ()⟩
  | r :: rest =>
      let done := step p r
      match done.outcome with
      | .error e => ⟨p, done.records, .error e⟩
      | .ok changed =>
          let later := run step changed rest
          ⟨later.program, done.records ++ later.result.records, later.result.outcome⟩

/-- The program of a pass that came to its end, with the records of the pass. In an
analysis the next pass starts from it. -/
def completed (pass : Pass) : Traced Typed.Program := do
  pass.result
  return pass.program

end Pass

/-- The routine that a parsed routine was declared as, with its handle. It goes by the
name alone, so parsed routines of one name have one answer. Only the blame is put on a
location of their own. -/
def findRoutine (p : Typed.Program) (r : Parsed.Routine) :
    Except Diagnostic (SymbolId × Typed.Routine) :=
  (Defect.undefinedSymbol r.name).blameNone r.location (p.findRoutine? r.name)

end FortranFront.Analysis
