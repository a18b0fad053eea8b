/-!
# `FortranFront.Options`: what the analysis may be asked for

The rules of the analysis are fixed, but one check is left to the caller.
-/

set_option autoImplicit false

namespace FortranFront

/-- What the analysis may check beyond its fixed rules. By default it checks nothing
more, so a program that mixes families of numbers in an assignment is accepted unless
the caller asks. `Proofs.Strictness` compares the two answers. -/
structure Options where
  /-- Reject an assignment between families of numbers. -/
  checkAssignmentTypes : Bool := false
deriving DecidableEq

/-- The form that the records show. -/
instance : ToString Options :=
  ⟨fun o => "Options \x7b check_assignment_types: " ++ toString o.checkAssignmentTypes ++ " \x7d"⟩

end FortranFront
