import FortranFront.Keyword

/-!
# `FortranFront.Intent`: how a routine uses a variable

A dummy argument is read, written or both, as its `intent` attribute says. A
variable without that attribute is local to its routine.
-/

set_option autoImplicit false

namespace FortranFront

/-- The use a routine makes of a variable. It is recorded for the variable and shown,
but no rule of the analysis depends on it. -/
inductive Intent where
  /-- No intent is given, so the variable counts as local. -/
  | unspecified
  | input
  | output
  | inout
deriving DecidableEq

namespace Intent

/-- The word for an intent, which is its specifier if it has one. `ofSpecifier?` reads
the same words, so the two cannot disagree. -/
def word : Intent → String
  | .unspecified => "local"
  | .input => "in"
  | .output => "out"
  | .inout => "inout"

instance : ToString Intent := ⟨word⟩

/-- The intent named by the argument of an `intent` attribute. The word `local` names
none, since that is how the lack of an intent is shown. -/
def ofSpecifier? (specifier : String) : Option Intent :=
  if Spells specifier input.word then some .input
  else if Spells specifier output.word then some .output
  else if Spells specifier inout.word then some .inout
  else none

end Intent

end FortranFront
