import FortranFront.Analysis.Bodies
import FortranFront.Analysis.Declared
import FortranFront.Analysis.Parameters

/-!
# `FortranFront.Analysis`: from a parsed program to a typed one

`analyze` declares every name of a program, then resolves the bodies, then links
the dummy arguments. The first violation ends the analysis and there is no typed
program then.
-/

set_option autoImplicit false

namespace FortranFront.Analysis

/-- The typed program of a parsed one, or the first violation in it. Violations come in
the order of the three passes, not in that of the text: all declarations are checked
before the first body. What a pass has done before it fails is not handed out. -/
def analyze (options : Options) (t : Parsed.Program) : Traced Typed.Program := do
  Traced.log (.analyzing t.routines.length options)
  let declared ← declare t
  let resolved ← (resolve options t declared).completed
  let linked ← (link t resolved).completed
  Traced.log (.finished linked.table.scopeCount linked.table.symbolCount)
  return linked

end FortranFront.Analysis
