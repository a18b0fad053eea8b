/-!
# `FortranFront.Operator`: the arithmetic operators

Parsed and typed expressions have operators of their own. A typed operation gets its
operator from the parsed one by `Typed.Operator.ofParsed`, which goes by the names of
the operators. `Proofs/Erasure` has the way back and says that nothing is lost.
-/

set_option autoImplicit false

namespace FortranFront

namespace Parsed

/-- A binary arithmetic operator as it was read. -/
inductive Operator where
  | add
  | sub
  | mul
  | div
  | pow
deriving DecidableEq

/-- The token an operator is written with. -/
def Operator.token : Operator → String
  | .add => "+"
  | .sub => "-"
  | .mul => "*"
  | .div => "/"
  | .pow => "**"

instance : ToString Operator := ⟨Operator.token⟩

end Parsed

namespace Typed

/-- A binary arithmetic operator of a typed expression. -/
inductive Operator where
  | add
  | sub
  | mul
  | div
  | pow
deriving DecidableEq

namespace Operator

/-- The token an operator is shown with. It is the one that `Parsed.Operator.token` gives for
the operator it comes from (`token_ofParsed`). -/
def token : Operator → String
  | .add => "+"
  | .sub => "-"
  | .mul => "*"
  | .div => "/"
  | .pow => "**"

instance : ToString Operator := ⟨token⟩

/-- The operator that resolution writes for one that was read. -/
def ofParsed : Parsed.Operator → Operator
  | .add => .add
  | .sub => .sub
  | .mul => .mul
  | .div => .div
  | .pow => .pow

/-- Resolution does not change how an operator looks. -/
@[simp] theorem token_ofParsed (op : Parsed.Operator) : (ofParsed op).token = op.token := by
  cases op <;> rfl

end Operator

end Typed

end FortranFront
