/-!
# `FortranFront.Heading`: what the heading of a routine says

The form of a routine and its foreign binding are read off its heading. Whether a routine is
a function decides what is declared for it. The binding is only copied to the typed routine,
by `Typed.Binding.ofParsed`.
-/

set_option autoImplicit false

namespace FortranFront

/-- A routine is called for its effect, or is a function with a result. -/
inductive RoutineForm where
  | subroutine
  | function
deriving DecidableEq

/-- The keyword that opens a routine. -/
def RoutineForm.keyword : RoutineForm → String
  | .subroutine => "subroutine"
  | .function => "function"

/-- The foreign language that the heading of a routine binds it to, and the name it has there
if one is given. -/
structure Parsed.Binding where
  language : String
  name : Option String
deriving DecidableEq

/-- The foreign language that a typed routine is bound to, and its name there. -/
structure Typed.Binding where
  language : String
  name : Option String
deriving DecidableEq

/-- The binding of the typed routine that is declared for a parsed one. Both of its parts are
copied, and neither is looked at. -/
def Typed.Binding.ofParsed (b : Parsed.Binding) : Typed.Binding := ⟨b.language, b.name⟩

end FortranFront
