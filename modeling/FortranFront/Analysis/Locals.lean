import FortranFront.Parsed.Program
import FortranFront.Trace
import FortranFront.Typed.Symbol

/-!
# `FortranFront.Analysis.Locals`: the variables of one routine

The variables of a routine are its implicit result, if it is a function, and one
variable for each declared name. The first declaration of a name decides. Later
ones are passed over unread, whatever is wrong with them, and so is a declaration
of a function's own name, which its result has taken.
-/

set_option autoImplicit false

namespace FortranFront.Analysis

open Typed (Variable)

/-- The type of a function's implicit result. No declaration can change it, because a
declaration of the function's name comes too late to be read. -/
def resultType : ScalarType := .integer 8

/-- The variable that holds the result of a function. It bears the function's name and
stands where the function does. -/
def resultVariable? (r : Parsed.Routine) : Option Variable :=
  match r.form with
  | .subroutine => none
  | .function => some ⟨r.name, .unspecified, resultType, r.location⟩

/-- The type of a type name that stands at some location. The location is that of the
declaration, which is blamed as a whole. -/
def typeNamed (typeName : String) (location : Location) : Except Diagnostic ScalarType :=
  (Defect.unsupportedType typeName).blameNone location (ScalarType.ofName? typeName)

/-- The attribute gives an intent, or means to. -/
def IsIntent (a : Parsed.Attribute) : Prop := Spells a.name "intent"

instance (a : Parsed.Attribute) : Decidable (IsIntent a) :=
  inferInstanceAs (Decidable (Spells a.name "intent"))

/-- The intent an attribute names by its first argument. Further arguments are not read.
An attribute without arguments is told from one with a wrong argument. -/
def intentNamed (a : Parsed.Attribute) : Except Diagnostic Intent :=
  match a.args with
  | [] => .error ⟨.emptyIntent, a.location⟩
  | specifier :: _ =>
      (Defect.invalidIntent specifier).blameNone a.location (Intent.ofSpecifier? specifier)

/-- The intent a list of attributes gives. Of several intents the last one counts, but
all of them are checked, so one wrong specifier is enough for a complaint. Without any
the variable is local. -/
def intentOf (attributes : List Parsed.Attribute) : Except Diagnostic Intent :=
  (attributes.filter (IsIntent ·)).foldlM (fun _ a => intentNamed a) .unspecified

/-- The variable a declaration declares. Its type is checked before its attributes, and
the location is that of the declaration. -/
def variableFor (d : Parsed.Declaration) : Except Diagnostic Variable := do
  let type ← typeNamed d.typeName d.location
  let intent ← intentOf d.attributes
  return ⟨d.name, intent, type, d.location⟩

/-- Adds the variable of a declaration to those declared so far, unless its name is
among them. A declaration that is passed over is not checked at all. It only leaves a
record. -/
def declareLocal (known : List Variable) (d : Parsed.Declaration) :
    Traced (List Variable) := do
  if d.name ∈ known.map (·.name) then
    Traced.log (.ignoredRedeclaration d.name)
    return known
  else
    let v ← Traced.lift (variableFor d)
    Traced.log (.declaredVariable v.name v.type v.intent)
    return known ++ [v]

/-- The variables of a routine, its result first and the others in the order of their
first declaration. The result is there before the first declaration is read, so it
counts as declared from the start. -/
def localsOf (r : Parsed.Routine) : Traced (List Variable) :=
  r.declarations.foldlM declareLocal (resultVariable? r).toList

/-- Blames the first dummy argument that the routine does not declare. A function's
result is no declaration of a dummy argument, so the variables are not asked but the
declarations. -/
def checkParameters (r : Parsed.Routine) : Except Diagnostic Unit :=
  r.parameters.forM fun p =>
    (Defect.undeclaredDummy p.name).blameUnless p.location (r.Declares p.name)

end FortranFront.Analysis
