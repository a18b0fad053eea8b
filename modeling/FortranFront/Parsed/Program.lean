import FortranFront.Heading
import FortranFront.Parsed.Expr

/-!
# `FortranFront.Parsed.Program`: routines as they were read

A program is a list of subroutines and functions. Its declarations carry type
names and attributes as plain words. Whether these mean anything is for the
analysis to say.
-/

set_option autoImplicit false

namespace FortranFront.Parsed

/-- An attribute of a declaration, such as `intent(in)`. Its name and its arguments are
words that the analysis may or may not understand. -/
structure Attribute where
  name : String
  args : List String
  location : Location
deriving DecidableEq

/-- The declaration of one name, such as `integer, intent(in) :: x`. The type is a word
and the attributes are unread. -/
structure Declaration where
  name : String
  typeName : String
  attributes : List Attribute
  location : Location
deriving DecidableEq

/-- A dummy argument in the head of a routine. It has no type of its own, which its
declaration gives. -/
structure Parameter where
  name : String
  location : Location
deriving DecidableEq

/-- A subroutine or a function, with everything that was read of it. Names may be
declared twice, and dummy arguments may be repeated or not declared at all. -/
structure Routine where
  form : RoutineForm
  name : String
  parameters : List Parameter
  declarations : List Declaration
  body : List Assignment
  binding : Option Binding
  location : Location
deriving DecidableEq

/-- The routine has a declaration of this name. The result of a function is not one,
although it binds the name of the function in the same scope. -/
def Routine.Declares (r : Routine) (name : String) : Prop := ∃ d ∈ r.declarations, d.name = name

instance (r : Routine) (name : String) : Decidable (r.Declares name) :=
  inferInstanceAs (Decidable (∃ d ∈ r.declarations, d.name = name))

/-- The routines of one source text, in the order they were read. No two of them need to
differ in their names. -/
structure Program where
  routines : List Routine
deriving DecidableEq

end FortranFront.Parsed
