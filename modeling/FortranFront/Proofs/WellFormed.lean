import FortranFront.Proofs.Resolves
import FortranFront.Proofs.Sessions

/-!
# `FortranFront.Proofs.WellFormed`: typed programs without dangling handles

A typed program is full of handles: in the bindings of its scopes, in its list of
routines and in the expressions of each routine. A program is `WellFormed` if all
of them lead where they should, and every expression is `WellTyped` in the scope
of its routine. No part of this asks how the program came about.

* `WellFormed.writeBody` and `WellFormed.writeParameters`: a pass writes only what
  it has resolved in the scope of the routine it writes to, so no single write
  spoils a program, whatever parsed program it comes from.
* `wellFormed_of_declare`: a declared program is well formed. Its bodies and
  parameters are empty, and the result of a function is the first variable of the
  function's scope.
* `wellFormed_afterSession`: so a program is well formed after any session, with
  requests that fail half way among them.
-/

set_option autoImplicit false

namespace FortranFront.Typed

/-- An expression is well typed in a scope. A variable's handle leads to a variable
which that scope binds under its own name, and has the type of it. Literals are integers
of eight bytes. Operations are reals of four, and their operands are of one family. The
numbers are written out, so they do not come from the definitions that the passes
use. -/
inductive Expr.WellTyped (table : SymbolTable) (scope : ScopeId) : Expr → Prop
  | var {symbol : SymbolId} {v : Variable} {location : Location} :
      table.symbol? symbol = some (.var v) → table.lookup scope v.name = some symbol →
      WellTyped table scope (.var symbol scope v.type location)
  | literal {value : Int} {location : Location} :
      WellTyped table scope (.literal value (.integer 8) location)
  | binary {op : Operator} {left right : Expr} {location : Location} :
      WellTyped table scope left → WellTyped table scope right →
      left.type.SameFamily right.type →
      WellTyped table scope (.binary op left right (.real 4) location)

/-- A routine is well typed if it has a scope of its own and all its expressions are
well typed there. Its parameters and its result are variables. A subroutine has no
result, and a routine that was not filled in has no parameters and no body. -/
structure Routine.WellTyped (table : SymbolTable) (r : Routine) : Prop where
  scope_lt : r.scope.index < table.scopeCount
  scope_ne : r.scope ≠ Program.unitScope
  result : ∀ e ∈ r.result?, e.symbol?.isSome ∧ e.WellTyped table r.scope
  parameters : ∀ e ∈ r.parameters, e.symbol?.isSome ∧ e.WellTyped table r.scope
  body : ∀ a ∈ r.body, a.target.WellTyped table r.scope ∧ a.value.WellTyped table r.scope

/-- Every handle of a program leads to a symbol of the right kind, and every routine is
well typed. A name that is found leads to a routine in the unit scope and to a variable
in any other. The first field is about all bindings, also such as no lookup would
find. -/
structure Program.WellFormed (p : Program) : Prop where
  bindings : ∀ {s : ScopeId} {sc : Scope}, p.table.scope? s = some sc → ∀ b ∈ sc.bindings,
    ∃ symbol, p.table.symbol? b.2 = some symbol ∧ symbol.name = b.1
  wellBound : p.table.WellBound
  items : ∀ id ∈ p.items, ∃ r, p.table.symbol? id = some (.routine r)
  routines : ∀ {id : SymbolId} {r : Routine}, p.table.symbol? id = some (.routine r) →
    r.WellTyped p.table

/-! ### What is well typed stays well typed -/

section Transfer

variable {t t' : SymbolTable} {scope : ScopeId}

/-- An expression stays well typed where its variables and their bindings are the same.
Nothing else of the table is looked at, so a table that has grown will do, and so will
one of the same skeleton. -/
theorem Expr.WellTyped.imp {e : Expr} (h : e.WellTyped t scope)
    (hsymbol : ∀ {id v}, t.symbol? id = some (.var v) → t'.symbol? id = some (.var v))
    (hlookup : ∀ {name id}, t.lookup scope name = some id → t'.lookup scope name = some id) :
    e.WellTyped t' scope := by
  induction h with
  | var hs hl => exact .var (hsymbol hs) (hlookup hl)
  | literal => exact .literal
  | binary _ _ hfamily ihl ihr => exact .binary ihl ihr hfamily

/-- A routine stays well typed where all its expressions do. The scope has to exist in
the other table as well. -/
theorem Routine.WellTyped.imp {r : Routine} (h : r.WellTyped t)
    (hscope : r.scope.index < t'.scopeCount)
    (hexpr : ∀ {e : Expr}, e.WellTyped t r.scope → e.WellTyped t' r.scope) :
    r.WellTyped t' where
  scope_lt := hscope
  scope_ne := h.scope_ne
  result e he := (h.result e he).imp_right hexpr
  parameters e he := (h.parameters e he).imp_right hexpr
  body a ha := (h.body a ha).imp hexpr hexpr

/-- A routine stays well typed in a table that has grown. This carries the routines
along a declaration. -/
theorem Routine.WellTyped.grow {r : Routine} (h : r.WellTyped t) (hgrow : t.GrowsTo t')
    (hcount : t.scopeCount ≤ t'.scopeCount) : r.WellTyped t' :=
  h.imp (Nat.lt_of_lt_of_le h.scope_lt hcount) fun he => he.imp hgrow.symbol hgrow.lookup

/-- Whether a routine is well typed depends on the skeleton of the table only. This
carries the routines along a pass, which changes other routines of the same table. -/
theorem Routine.WellTyped.congr {r : Routine} (h : r.WellTyped t)
    (heq : t.skeleton = t'.skeleton) : r.WellTyped t' := by
  have hcount : t.scopeCount = t'.scopeCount := by
    rw [← t.scopeCount_skeleton, heq, t'.scopeCount_skeleton]
  refine h.imp (hcount ▸ h.scope_lt) fun he =>
    he.imp (SymbolTable.symbol?_var_congr heq) fun hl => ?_
  rwa [← SymbolTable.lookup_congr heq]

end Transfer

end FortranFront.Typed

namespace FortranFront.SymbolTable

/-- Whether a table is well bound depends on its skeleton only. The bindings are in the
skeleton, and so are the names and kinds of symbols, which is all that `WellBound`
compares. -/
theorem WellBound.congr {t t' : SymbolTable} (h : t.WellBound) (heq : t.skeleton = t'.skeleton) :
    t'.WellBound := by
  intro s name id hl
  rw [← lookup_congr heq] at hl
  obtain ⟨symbol, hs, hname, hkind⟩ := h s name id hl
  obtain ⟨symbol', hs', hskeleton⟩ := exists_symbol?_congr heq hs
  -- Name and kind of a symbol can be read off its skeleton.
  refine ⟨symbol', hs', ?_, ?_⟩
  · rw [← hname]
    exact Typed.Symbol.name_congr hskeleton
  · have hroutine := congrArg (fun s => s.toRoutine?.isSome) hskeleton
    simp only [Typed.Symbol.toRoutine?_skeleton, Option.isSome_map] at hroutine
    rw [hroutine]
    exact hkind

end FortranFront.SymbolTable

namespace FortranFront.Analysis

open Typed (Program)

/-! ### What the passes write -/

section Writes

variable {table : SymbolTable} {scope : ScopeId}

/-- A variable that is found under a name is well typed where it was found. The table
has to be well bound, since the variable must be bound under its own name and not just
under the one that was looked up. -/
theorem wellTyped_of_findVariable? (hbound : table.WellBound) {name : String}
    {symbol : SymbolId} {v : Typed.Variable} (location : Location)
    (hfound : table.findVariable? scope name = some (symbol, v)) :
    (Typed.Expr.var symbol scope v.type location).WellTyped table scope := by
  obtain ⟨hlookup, hsymbol⟩ := SymbolTable.findVariable?_eq_some_iff.mp hfound
  have hname := hbound.name_of_findVariable? hfound
  exact .var hsymbol (hname ▸ hlookup)

/-- Whatever an expression is resolved to is well typed. The rules of `Resolves` and
those of `WellTyped` match one by one. -/
theorem Resolves.wellTyped (hbound : table.WellBound) {e : Parsed.Expr} {e' : Typed.Expr}
    (h : Resolves table scope e e') : e'.WellTyped table scope := by
  induction h with
  | name hfound => exact wellTyped_of_findVariable? hbound _ hfound
  | literal => exact .literal
  | binary _ _ hfamily ihl ihr => exact .binary ihl ihr hfamily

/-- A linked parameter is a variable and well typed, as it was found in the scope it is
linked in. -/
theorem wellTyped_of_linkParameter (hbound : table.WellBound) {a : Parsed.Parameter}
    {e : Typed.Expr} (h : linkParameter table scope a = .ok e) :
    e.symbol?.isSome ∧ e.WellTyped table scope := by
  obtain ⟨symbol, v, hfound, rfl⟩ := linkParameter_eq_ok_iff.mp h
  exact ⟨rfl, wellTyped_of_findVariable? hbound a.location hfound⟩

end Writes

end FortranFront.Analysis

namespace FortranFront.Typed.Program.WellFormed

open Analysis

variable {p : Program} {r : Parsed.Routine} {id : SymbolId}

/-- A change to one routine keeps a program well formed if it keeps the skeleton and the
new routine is well typed. It is asked of the one routine that is behind the handle, and
the other routines are left to `Routine.WellTyped.congr`. -/
theorem modifyRoutine (h : p.WellFormed) {f : Typed.Routine → Typed.Routine}
    (hf : ∀ r, (f r).skeleton = r.skeleton) {routine : Typed.Routine}
    (hroutine : p.table.symbol? id = some (.routine routine))
    (hnew : (f routine).WellTyped p.table) : (p.modifyRoutine id f).WellFormed := by
  have hskeleton : p.skeleton = (p.modifyRoutine id f).skeleton :=
    (Program.skeleton_modifyRoutine hf p id).symm
  have htable := Program.table_skeleton_congr hskeleton
  constructor
  case bindings =>
    intro s sc hsc b hb
    have hold : p.table.scope? s = some sc := hsc
    obtain ⟨symbol, hs, hname⟩ := h.bindings hold b hb
    obtain ⟨symbol', hs', hsame⟩ := SymbolTable.exists_symbol?_congr htable hs
    exact ⟨symbol', hs', (Symbol.name_congr hsame).trans hname⟩
  case wellBound => exact h.wellBound.congr htable
  case items =>
    intro i hi
    obtain ⟨r, hr⟩ := h.items i hi
    obtain ⟨symbol', hs', hsame⟩ := SymbolTable.exists_symbol?_congr htable hr
    cases symbol' with
    | var v => cases hsame
    | routine r' => exact ⟨r', hs'⟩
  case routines =>
    intro i r hr
    rw [Program.symbol?_modifyRoutine] at hr
    split at hr
    · -- The routine that was changed.
      rename_i hi
      subst hi
      rw [hroutine] at hr
      cases hr
      exact hnew.congr htable
    · -- Any other routine is what it was, in a table of the same skeleton.
      exact (h.routines hr).congr htable

/-- A body that was resolved for a routine can be written to it. The plan says that it
was resolved in the scope of the routine that is written to, and `Resolves.wellTyped`
makes each of its trees well typed there. The other fields of the routine are kept. -/
theorem writeBody {options : Options} (h : p.WellFormed)
    {body : List Typed.Assignment} (hplan : (bodies options).plan p r = .ok (id, body)) :
    (p.modifyRoutine id ((bodies options).put body)).WellFormed := by
  obtain ⟨routine, hfound, hbody⟩ := plan_bodies_eq_ok_iff.mp hplan
  have hroutine := (findRoutine?_eq_some_iff.mp hfound).2
  have hold := h.routines hroutine
  refine h.modifyRoutine ((bodies options).skeleton_put body) hroutine ?_
  -- Scope and result are kept, so the new body is all there is to check.
  exact {
    hold with
    body := by
      intro a' ha'
      obtain ⟨a, -, ha⟩ := exists_source hbody ha'
      exact ⟨ha.target.wellTyped h.wellBound, ha.value.wellTyped h.wellBound⟩ }

/-- Parameters that were linked for a routine can be written to it, for the same reason.
A parameter is a single variable, so `wellTyped_of_linkParameter` is all there is to say
of it. -/
theorem writeParameters (h : p.WellFormed) {linked : List Typed.Expr}
    (hplan : parameters.plan p r = .ok (id, linked)) :
    (p.modifyRoutine id (parameters.put linked)).WellFormed := by
  obtain ⟨routine, hfound, hlinked⟩ := plan_parameters_eq_ok_iff.mp hplan
  have hroutine := (findRoutine?_eq_some_iff.mp hfound).2
  have hold := h.routines hroutine
  refine h.modifyRoutine (parameters.skeleton_put linked) hroutine ?_
  -- Here the parameters are new, and the rest is kept.
  exact {
    hold with
    parameters := by
      intro e he
      obtain ⟨a, -, ha⟩ := exists_source hlinked he
      exact wellTyped_of_linkParameter h.wellBound ha }

end FortranFront.Typed.Program.WellFormed

namespace FortranFront.Analysis

open Typed (Program Variable)

/-! ### Declared programs -/

section Declared

variable {p q : Program} {r : Parsed.Routine} {before : List Parsed.Routine}
  {locals : List Variable}

/-- Declaring variables adds no routine to a table. So a routine that is found there was
there before. The induction is on the variables, with the table left free, and a
variable that could not be declared would change nothing. -/
theorem symbol?_of_localTable {id : SymbolId} {routine : Typed.Routine}
    (h : (localTable p locals).symbol? id = some (.routine routine)) :
    p.table.symbol? id = some (.routine routine) := by
  have hdeclareAll : ∀ (vs : List Variable) (t : SymbolTable) (scope : ScopeId),
      (t.declareAll scope (vs.map .var)).symbol? id = some (.routine routine) →
        t.symbol? id = some (.routine routine) := by
    intro vs
    induction vs with
    | nil => exact fun t scope h => h
    | cons v vs ih =>
        intro t scope h
        have hfirst : (t.declare scope (.var v)).symbol? id = some (.routine routine) :=
          ih _ scope h
        unfold SymbolTable.declare at hfirst
        -- The first variable is declared or left out, and is no routine in either case.
        cases hd : t.declare? scope (.var v) with
        | none => rwa [hd] at hfirst
        | some result =>
            rw [hd] at hfirst
            change result.2.symbol? id = _ at hfirst
            rw [SymbolTable.symbol?_of_declare? hd] at hfirst
            split at hfirst
            · cases hfirst
            · exact hfirst
  exact hdeclareAll locals (p.table.openScope .routine) p.table.nextScope h

/-- The result of a function is declared before its other variables, so it gets the
first handle, and the function's scope binds its name to that. That it can be declared
at all is because the scope is new. -/
theorem wellTyped_result (hlocals : (localsOf r).outcome = .ok locals) {v : Variable}
    (hv : resultVariable? r = some v) :
    (Typed.Expr.var p.table.nextSymbol p.table.nextScope v.type v.location).WellTyped
      (localTable p locals) p.table.nextScope := by
  obtain ⟨vs, rfl, -⟩ := localsOf_eq_ok hlocals
  rw [hv]
  -- In the new scope no name is bound, so the first variable can be declared.
  have hfree : (p.table.openScope .routine).lookup p.table.nextScope v.name = none := by
    rw [SymbolTable.lookup_openScope]
    exact SymbolTable.lookup_eq_none_of_le (Nat.le_refl _)
  have hlt : p.table.nextScope.index < (p.table.openScope .routine).scopeCount := by
    simp [SymbolTable.nextScope]
  have hsome : ((p.table.openScope .routine).declare? p.table.nextScope (.var v)).isSome :=
    (SymbolTable.isSome_declare?_iff hlt).mpr hfree
  obtain ⟨⟨id, first⟩, hdeclare⟩ := Option.isSome_iff_exists.mp hsome
  have hid : id = (p.table.openScope .routine).nextSymbol := SymbolTable.id_of_declare? hdeclare
  obtain rfl : id = p.table.nextSymbol := hid
  have htable : localTable p (v :: vs) =
      first.declareAll p.table.nextScope (vs.map .var) := by
    show ((p.table.openScope .routine).declare p.table.nextScope (.var v)).declareAll _ _ = _
    unfold SymbolTable.declare
    rw [hdeclare]
    rfl
  have hgrow := SymbolTable.GrowsTo.declareAll first p.table.nextScope (vs.map .var)
  show (Typed.Expr.var p.table.nextSymbol p.table.nextScope v.type v.location).WellTyped
    (localTable p (v :: vs)) p.table.nextScope
  rw [htable]
  refine .var (hgrow.symbol ?_) (hgrow.lookup ?_)
  · rw [SymbolTable.symbol?_of_declare? hdeclare, if_pos rfl]
  · rw [SymbolTable.lookup_of_declare? hdeclare, if_pos ⟨rfl, rfl⟩]

/-- A routine is well typed as it is declared. Only its result has to be looked at,
since there are no parameters and no body yet. The result is well typed in the table
that its variables have been declared in, which is not that of the whole program yet. -/
theorem wellTyped_declaredRoutine (hdeclared : DeclaredFrom before p)
    (hlocals : (localsOf r).outcome = .ok locals) :
    (declaredRoutine r p.table.nextSymbol p.table.nextScope).WellTyped
      (localTable p locals) where
  scope_lt := by simp [declaredRoutine, localTable, SymbolTable.nextScope]
  scope_ne := hdeclared.nextScope_ne
  -- The result is there exactly if there is a result variable.
  result e he := by
    simp only [declaredRoutine, Typed.Routine.result?, kindOf] at he
    cases hv : resultVariable? r with
    | none => simp [hv] at he
    | some v =>
        rw [hv] at he
        cases he
        exact ⟨rfl, wellTyped_result hlocals hv⟩
  parameters e he := by cases he
  body a ha := by cases ha

/-- Declaring one routine more keeps all routines well typed. A routine of the larger
table is either the new one or was there before. Either way it was well typed in a
smaller table, and by `WellTyped.grow` it stays so. -/
theorem wellTyped_step (hdeclared : DeclaredFrom before p)
    (hroutines : ∀ {id routine}, p.table.symbol? id = some (.routine routine) →
      routine.WellTyped p.table)
    (hstep : (declareRoutine p r).outcome = .ok q) {id : SymbolId} {routine : Typed.Routine}
    (hroutine : q.table.symbol? id = some (.routine routine)) : routine.WellTyped q.table := by
  obtain ⟨locals, hlocals, -, hadd⟩ := declareRoutine_eq_ok_iff.mp hstep
  obtain ⟨⟨new, table⟩, hdeclare, rfl⟩ := Option.map_eq_some_iff.mp hadd
  have hgrow := SymbolTable.GrowsTo.declare? hdeclare
  have hcount : (localTable p locals).scopeCount = table.scopeCount :=
    (SymbolTable.scopeCount_of_declare? hdeclare).symm
  change table.symbol? id = _ at hroutine
  rw [SymbolTable.symbol?_of_declare? hdeclare] at hroutine
  split at hroutine
  · -- The routine that was declared just now, in a table that has grown by itself.
    cases hroutine
    exact (wellTyped_declaredRoutine hdeclared hlocals).grow hgrow hcount.le
  · -- An older routine, in a table that has grown twice.
    have hold := hroutines (symbol?_of_localTable hroutine)
    refine hold.grow ((growsTo_localTable p locals).trans hgrow) ?_
    rw [← hcount]
    simp [localTable]

end Declared

/-- A declared program is well formed. That the routines are well typed is an invariant
of the declaration, carried along with `DeclaredFrom`, on which it depends. The other
fields can be read off the declared program. This is the start of the invariant of
sessions, whose steps are `WellFormed.writeBody` and `WellFormed.writeParameters`. -/
theorem wellFormed_of_declare {t : Parsed.Program} {p : Program}
    (h : (declare t).outcome = .ok p) : p.WellFormed := by
  have hdeclared := declaredFrom_of_declare h
  have hroutines : DeclaredFrom t.routines p ∧ ∀ {id routine},
      p.table.symbol? id = some (.routine routine) → routine.WellTyped p.table := by
    have hfold := h
    rw [declare, Traced.outcome_foldlM] at hfold
    refine foldlM_invariant (fun before p => DeclaredFrom before p ∧ ∀ {id routine},
      p.table.symbol? id = some (.routine routine) → routine.WellTyped p.table)
      (fun before p r q hp hstep => ⟨hp.1.step hstep, wellTyped_step hp.1 hp.2 hstep⟩)
      ⟨.empty, fun hroutine => ?_⟩ hfold
    -- There is no symbol at first.
    cases hroutine
  constructor
  case bindings => exact fun hsc b hb => (built_of_declare h).symbol?_of_mem_bindings hsc hb
  case wellBound => exact hdeclared.wellBound
  case items =>
    intro id hid
    obtain ⟨r, -, hr⟩ := exists_source hdeclared.items hid
    obtain ⟨first, scope, hsymbol, -⟩ := hr.routine
    exact ⟨_, hsymbol⟩
  case routines => exact hroutines.2

/-! ### Sessions -/

/-- A request keeps a program well formed, whatever it asks for and however it ends. By
`Filling.run_invariant` it is enough that each single write does, which is what
`writeBody` and `writeParameters` say. -/
theorem Request.wellFormed_serve {p : Program} (h : p.WellFormed) (request : Request) :
    (request.serve p).WellFormed := by
  cases request with
  | resolve options t =>
      show (Analysis.resolve options t p).program.WellFormed
      rw [resolve_eq_run]
      exact (bodies options).run_invariant Program.WellFormed
        (fun _ _ _ hq hplan => hq.writeBody hplan) h t.routines
  | link t =>
      show (Analysis.link t p).program.WellFormed
      rw [link_eq_run]
      exact parameters.run_invariant Program.WellFormed
        (fun _ _ _ hq hplan => hq.writeParameters hplan) h t.routines

/-- A session keeps a program well formed, request by request. The program need not have
been declared, as long as it is well formed. -/
theorem wellFormed_session {p : Program} (h : p.WellFormed) (session : List Request) :
    (afterSession p session).WellFormed := by
  induction session generalizing p with
  | nil => exact h
  | cons request rest ih => exact ih (request.wellFormed_serve h)

/-- A declared program is well formed after any session: every handle leads to a symbol
of the right kind, every variable is the one its routine's scope binds under its own
name and has its type, and literals and operations have the types they must have. The
parsed programs of the session may be any, and its requests may fail.

`wellTyped_step` is the invariant of the declaration, and `Request.wellFormed_serve`
that of a session. A request that fails has written for some routines and not for
others, and it is enough that each write by itself is one of a tree typed in the scope
of its routine. -/
theorem wellFormed_afterSession {t : Parsed.Program} {p : Program}
    (h : (declare t).outcome = .ok p) (session : List Request) :
    (afterSession p session).WellFormed :=
  wellFormed_session (wellFormed_of_declare h) session

/-- A function that computes its result from its dummy argument. Its body has a
variable, a literal and two operations, and is well typed although the result is an
integer. -/
def half : Parsed.Routine where
  form := .function
  name := "half"
  parameters := [⟨"x", .onLine 1 15 15⟩]
  declarations := [⟨"x", "real", [⟨"intent", ["in"], .onLine 2 9 18⟩], .onLine 2 3 23⟩]
  body := [.of (.name "half" (.onLine 3 3 6)) (.binary .div (.name "x" (.onLine 3 10 10))
    (.binary .add (.literal 1 (.onLine 3 15 15)) (.literal 1 (.onLine 3 19 19))
      (.onLine 3 14 20)) (.onLine 3 10 20))]
  binding := none
  location := .onLine 1 1 16

/-- A session in which a pass over another program writes one body and then fails, and a second
pass links the parameter, leaves a well formed program with both of them in it. -/
theorem wellFormed_half_afterSession :
    ∃ p, (declare ⟨[half]⟩).outcome = .ok p ∧
      (resolve {} ⟨[half, { half with name := "third" }]⟩ p).result.outcome =
        .error ⟨.undefinedSymbol "third", .onLine 1 1 16⟩ ∧
      ((afterSession p [.resolve {} ⟨[half, { half with name := "third" }]⟩,
        .link ⟨[half]⟩]).routine? "half").map (fun r => (r.parameters.length, r.body.length)) =
        some (1, 1) ∧
      (afterSession p [.resolve {} ⟨[half, { half with name := "third" }]⟩,
        .link ⟨[half]⟩]).WellFormed :=
  ⟨_, rfl, rfl, rfl, wellFormed_afterSession (t := ⟨[half]⟩) rfl
    [.resolve {} ⟨[half, { half with name := "third" }]⟩, .link ⟨[half]⟩]⟩

end FortranFront.Analysis
