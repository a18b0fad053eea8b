import FortranFront.Diagnostic
import FortranFront.Handle
import FortranFront.Heading
import FortranFront.Intent
import FortranFront.Options

/-!
# `FortranFront.Trace`: analysis steps that leave a record

A `Record` says what the analysis did. A computation that is `Traced` gives its
records together with its outcome, a value or the diagnostic it stopped at. The
records of a stopped computation are kept.

`Traced` is a lawful monad: in `x >>= f` the records of `f` follow those of `x`,
and after a failure of `x` there are none of `f`.
-/

set_option autoImplicit false

namespace FortranFront

/-- One step of the analysis. The names, types and handles are those of the step, so
that the records of a run tell what it did without its outcome. -/
inductive Record where
  | analyzing (count : Nat) (options : Options)
  | declaring (form : RoutineForm) (name : String)
  | ignoredRedeclaration (name : String)
  | declaredVariable (name : String) (type : ScalarType) (intent : Intent)
  | resolvedName (name : String) (symbol : SymbolId) (scope : ScopeId)
  | resolvedBody (count : Nat) (routine : String)
  | linkedParameters (count : Nat) (routine : String)
  | finished (scopes symbols : Nat)
deriving DecidableEq

namespace Record

/-- How much detail a record gives. -/
inductive Level where
  | debug
  | trace
deriving DecidableEq

/-- The word for a level. -/
def Level.word : Level → String
  | .debug => "DEBUG"
  | .trace => "TRACE"

/-- Steps inside a routine are details, all others are not. -/
def level : Record → Level
  | .ignoredRedeclaration _ => .trace
  | .declaredVariable _ _ _ => .trace
  | .resolvedName _ _ _ => .trace
  | _ => .debug

/-- The sentence that tells a reader what was done. -/
def message : Record → String
  | .analyzing count options =>
      "analyzing " ++ toString count ++ " top-level items with " ++ toString options
  | .declaring form name => "declaring " ++ form.keyword ++ " '" ++ name ++ "'"
  | .ignoredRedeclaration name => "ignoring redeclaration of '" ++ name ++ "'"
  | .declaredVariable name type intent =>
      "declaring variable '" ++ name ++ "': " ++ toString type ++
        " intent(" ++ toString intent ++ ")"
  | .resolvedName name symbol scope =>
      "resolved '" ++ name ++ "' to SymbolId(" ++ toString symbol.index ++ ") in ScopeId(" ++
        toString scope.index ++ ")"
  | .resolvedBody count routine =>
      "resolved " ++ toString count ++ " statements in '" ++ routine ++ "'"
  | .linkedParameters count routine =>
      "linked " ++ toString count ++ " parameters of '" ++ routine ++ "'"
  | .finished scopes symbols =>
      "analysis finished: " ++ toString scopes ++ " scopes, " ++ toString symbols ++ " symbols"

/-- The line of a record, its level before its message. -/
instance : ToString Record := ⟨fun r => r.level.word ++ " " ++ r.message⟩

end Record

/-- An outcome with the records of how it came about. A computation that fails has
records too, namely those of the steps before the failure. -/
structure Traced (α : Type) where
  records : List Record
  outcome : Except Diagnostic α

namespace Traced

variable {α β : Type}

/-- Continues with the value of an outcome, and not at all after a failure. The records
of the two parts stand in the order the parts were run. -/
protected def bind (x : Traced α) (f : α → Traced β) : Traced β :=
  match x.outcome with
  | .error e => ⟨x.records, .error e⟩
  | .ok a => ⟨x.records ++ (f a).records, (f a).outcome⟩

instance : Monad Traced where
  pure a := ⟨[], .ok a⟩
  bind := Traced.bind

instance : LawfulMonad Traced := LawfulMonad.mk' Traced
  (by
    intro α x
    obtain ⟨records, outcome⟩ := x
    cases outcome <;> simp [Functor.map, Traced.bind])
  (by intro α β a f; simp [Bind.bind, Pure.pure, Traced.bind])
  (by
    intro α β γ x f g
    obtain ⟨records, outcome⟩ := x
    cases outcome with
    | error e => rfl
    | ok a =>
        simp only [Bind.bind, Traced.bind]
        cases (f a).outcome <;> simp)

/-- Leaves a record and does nothing else. -/
def log (r : Record) : Traced Unit := ⟨[r], .ok ()⟩

/-- Takes over an outcome that leaves no record. Checks and lookups, which are not
recorded, come into a traced computation by it. -/
def lift (outcome : Except Diagnostic α) : Traced α := ⟨[], outcome⟩

/-! ### The outcome and the records of each operation -/

@[simp] theorem outcome_pure (a : α) : (pure a : Traced α).outcome = .ok a := rfl

@[simp] theorem records_pure (a : α) : (pure a : Traced α).records = [] := rfl

@[simp] theorem outcome_log (r : Record) : (log r).outcome = .ok () := rfl

@[simp] theorem records_log (r : Record) : (log r).records = [r] := rfl

@[simp] theorem outcome_lift (o : Except Diagnostic α) : (lift o).outcome = o := rfl

@[simp] theorem records_lift (o : Except Diagnostic α) : (lift o).records = [] := rfl

@[simp] theorem outcome_map (f : α → β) (x : Traced α) :
    (f <$> x).outcome = x.outcome.map f := by
  obtain ⟨records, outcome⟩ := x
  cases outcome <;> rfl

@[simp] theorem records_map (f : α → β) (x : Traced α) : (f <$> x).records = x.records := by
  obtain ⟨records, outcome⟩ := x
  cases outcome <;> simp [Functor.map, Traced.bind]

/-- Outcomes compose as they would without records. What a computation answers can
therefore be told from its parts in `Except`, and the records left aside. -/
@[simp] theorem outcome_bind (x : Traced α) (f : α → Traced β) :
    (x >>= f).outcome = x.outcome.bind fun a => (f a).outcome := by
  obtain ⟨records, outcome⟩ := x
  cases outcome <;> rfl

/-- After a value the records of the continuation follow. The value has to be known,
since it decides what the continuation is. -/
theorem records_bind_of_ok {x : Traced α} {a : α} (f : α → Traced β) (h : x.outcome = .ok a) :
    (x >>= f).records = x.records ++ (f a).records := by
  obtain ⟨records, outcome⟩ := x
  subst h
  rfl

end Traced

end FortranFront
