import FortranFront.Location
import FortranFront.ScalarType

/-!
# `FortranFront.Diagnostic`: what can be wrong with a program

A `Defect` is the cause of a complaint with the words or types it is about. A
`Diagnostic` is a defect at a place. The wording, the code and the advice depend
on the defect alone.
-/

set_option autoImplicit false

namespace FortranFront

/-- A reason to reject a program. -/
inductive Defect where
  /-- A dummy argument that the routine does not declare. -/
  | undeclaredDummy (name : String)
  /-- A second routine of one name. -/
  | duplicateDefinition (name : String)
  /-- A type name that names no type, as it was spelled. -/
  | unsupportedType (typeName : String)
  /-- An `intent` attribute without an argument. -/
  | emptyIntent
  /-- An `intent` attribute whose argument names no intent, as it was spelled. -/
  | invalidIntent (specifier : String)
  /-- An operation on two families of numbers. -/
  | operandMismatch (left right : ScalarType)
  /-- An assignment from one family of numbers to another. -/
  | assignmentMismatch (target value : ScalarType)
  /-- A name that is bound to nothing of the kind it is used as. -/
  | undefinedSymbol (name : String)
deriving DecidableEq

namespace Defect

/-- The sentence that tells a reader what is wrong. Names and specifiers are quoted as
they were spelled, and types in the form that `ScalarType` is shown in. -/
def message : Defect → String
  | .undeclaredDummy name => "Dummy argument '" ++ name ++ "' not defined"
  | .duplicateDefinition name => "'" ++ name ++ "' is already defined"
  | .unsupportedType typeName => "Unsupported type: '" ++ typeName ++ "'"
  | .emptyIntent => "intent() is empty. Must specify intent"
  | .invalidIntent specifier => "Incorrect intent specifier: '" ++ specifier ++ "'"
  | .operandMismatch left right =>
      "Type mismatch in binary operation: '" ++ toString left ++ "' and '" ++ toString right ++ "'"
  | .assignmentMismatch target value =>
      "Type mismatch in assignment: cannot assign '" ++ toString value ++ "' to '" ++
        toString target ++ "'"
  | .undefinedSymbol name => "Symbol '" ++ name ++ "' is not defined"

/-- The stable code of a defect, for tools. It tells what kind of defect it is and
nothing of the words or types it is about. -/
def code : Defect → String
  | .undeclaredDummy _ => "sema::undeclared_dummy_argument"
  | .duplicateDefinition _ => "sema::duplicate_definition"
  | .unsupportedType _ => "sema::unsupported_type"
  | .emptyIntent => "sema::empty_intent_specifier"
  | .invalidIntent _ => "sema::invalid_intent_specifier"
  | .operandMismatch _ _ => "sema::operand_type_mismatch"
  | .assignmentMismatch _ _ => "sema::assignment_type_mismatch"
  | .undefinedSymbol _ => "sema::undefined_symbol"

/-- Advice on how to mend a defect, where there is any. Like the code it depends on the
kind of the defect alone. -/
def help? : Defect → Option String
  | .undeclaredDummy _ =>
      some "every dummy argument must be declared in the routine's specification part"
  | .unsupportedType _ => some "only 'integer' and 'real' are supported"
  | .emptyIntent => some "use one of 'in', 'out' or 'inout'"
  | .invalidIntent _ => some "use one of 'in', 'out' or 'inout'"
  | _ => none

end Defect

/-- A defect and the region of text it is about. -/
structure Diagnostic where
  defect : Defect
  location : Location
deriving DecidableEq

namespace Defect

/-- Answers a value, or blames the defect on a location if there is none. All lookups
that can fail are reported by it. -/
def blameNone {α : Type} (defect : Defect) (location : Location) :
    Option α → Except Diagnostic α
  | some value => .ok value
  | none => .error ⟨defect, location⟩

/-- Blames the defect on a location unless a condition holds. All comparisons that can
fail are reported by it. -/
def blameUnless (defect : Defect) (location : Location) (condition : Prop) [Decidable condition] :
    Except Diagnostic Unit :=
  if condition then .ok () else .error ⟨defect, location⟩

end Defect

end FortranFront
