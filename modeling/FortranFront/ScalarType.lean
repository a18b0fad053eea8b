import FortranFront.Keyword

/-!
# `FortranFront.ScalarType`: the scalar types of the language

A type is a family, integer or real, together with its kind, the storage width in
bytes. A declaration names the family alone and gets the default kind. Operands
and assignments are compared by family, never by kind.
-/

set_option autoImplicit false

namespace FortranFront

/-- The families of numbers the language computes with. -/
inductive Family where
  | integer
  | real
deriving DecidableEq

/-- The keyword that declares a family. -/
def Family.keyword : Family → String
  | .integer => "integer"
  | .real => "real"

/-- A family of numbers and its kind, the width in bytes. The kind is shown and kept,
and no check looks at it. -/
structure ScalarType where
  family : Family
  kind : Nat
deriving DecidableEq

namespace ScalarType

/-- The kind of a type that is declared by its name alone. -/
def defaultKind : Nat := 4

/-- The integers of some kind. -/
def integer (kind : Nat) : ScalarType := ⟨.integer, kind⟩

/-- The reals of some kind. -/
def real (kind : Nat) : ScalarType := ⟨.real, kind⟩

/-- The default type of a declared type name, and nothing for a name that is no type. A
declaration cannot ask for another kind. -/
def ofName? (name : String) : Option ScalarType :=
  if Spells name Family.integer.keyword then some (integer defaultKind)
  else if Spells name Family.real.keyword then some (real defaultKind)
  else none

/-- Both types compute with the same family of numbers, of whatever width. Operands and
assignments are held to no more than this. -/
def SameFamily (a b : ScalarType) : Prop := a.family = b.family

instance (a b : ScalarType) : Decidable (SameFamily a b) :=
  inferInstanceAs (Decidable (a.family = b.family))

/-- The form `integer(4)`. -/
instance : ToString ScalarType := ⟨fun t => t.family.keyword ++ "(" ++ toString t.kind ++ ")"⟩

end ScalarType

end FortranFront
