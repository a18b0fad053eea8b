import FortranFront.Proofs.Sessions
import FortranFront.Proofs.Written

/-!
# `FortranFront.Proofs.Erasure`: nothing of a program is lost in the analysis

A typed tree has handles where the parsed one has names, and types besides. `erase?`
puts the names of the symbols back and drops the types, and it fails only on a
handle that leads nowhere. A routine is `Lowered` from a parsed one if its heading
is the same and its parameters and its body erase to those of the parsed one.

Operators and bindings have a type of their own in either tree. `toParsed` takes
them back.

* `Typed.Operator.toParsed_ofParsed` and `Typed.Binding.map_toParsed_map_ofParsed`:
  taking one back undoes its conversion.
* `Resolves.erase?` and `ResolvesAssignment.erase?`: in a well bound table the name
  of a bound symbol is the name it is bound to, so what was resolved erases to what
  it was resolved from.
* `erase?_congr`: what a pass writes does not change the names of symbols.
* `DeclaredFrom.exists_filled`: what both passes have made of a routine, once they
  have succeeded.
* `lowered_of_analyze`: an analysed program has one routine for each parsed one, in
  the same order, and each is lowered from its own.
-/

set_option autoImplicit false

namespace FortranFront

/-! ### Back to what was read -/

/-- The operator that was read, for a typed one. It goes back by name, as
`Typed.Operator.ofParsed` goes forth. -/
def Typed.Operator.toParsed : Typed.Operator → Parsed.Operator
  | .add => .add
  | .sub => .sub
  | .mul => .mul
  | .div => .div
  | .pow => .pow

/-- No two operators become one in resolution, since `Typed.Operator.toParsed` tells them apart. -/
@[simp] theorem Typed.Operator.toParsed_ofParsed (op : Parsed.Operator) :
    (Typed.Operator.ofParsed op).toParsed = op := by
  cases op <;> rfl

/-- The binding that was read, for a typed one. A typed binding has both fields of a
parsed one, so nothing has to be made up. -/
def Typed.Binding.toParsed (b : Typed.Binding) : Parsed.Binding := ⟨b.language, b.name⟩

/-- A binding that is copied to a typed routine and taken back from there is what it was, and so is
one that is missing. -/
theorem Typed.Binding.map_toParsed_map_ofParsed (binding : Option Parsed.Binding) :
    (binding.map Typed.Binding.ofParsed).map Typed.Binding.toParsed = binding := by
  cases binding <;> rfl

namespace Analysis

open Typed (Program)

/-! ### Erasing types and handles -/

/-- The name of the symbol behind a handle, if there is one. Routines have names too, so
what is read here need not be a variable. -/
def nameOf? (table : SymbolTable) (symbol : SymbolId) : Option String :=
  (table.symbol? symbol).map Typed.Symbol.name

/-- The parsed form of a typed expression, if all its handles lead to symbols. The type
at each node and the scope of each variable are dropped, and they are all that the
parsed form does not have. -/
def erase? (table : SymbolTable) : Typed.Expr → Option Parsed.Expr
  | .var symbol _ _ location => (nameOf? table symbol).map fun name => .name name location
  | .literal value _ location => some (.literal value location)
  | .binary op left right _ location => do
      let left ← erase? table left
      let right ← erase? table right
      return .binary op.toParsed left right location

/-- The parsed form of a typed assignment, which fails with either of its sides. -/
def eraseAssignment? (table : SymbolTable) (a : Typed.Assignment) :
    Option Parsed.Assignment := do
  let target ← erase? table a.target
  let value ← erase? table a.value
  return ⟨target, value, a.location⟩

/-- The dummy argument that a linked parameter was, which only a variable can be. -/
def eraseParameter? (table : SymbolTable) : Typed.Expr → Option Parsed.Parameter
  | .var symbol _ _ location => (nameOf? table symbol).map fun name => ⟨name, location⟩
  | _ => none

/-- Whether a routine of a kind is a subroutine or a function. The result variable of a
function is not in a parsed heading. -/
def formOf : Typed.RoutineKind → RoutineForm
  | .subroutine => .subroutine
  | .function _ => .function

/-- A typed routine has the heading of a parsed one, and its parts erase to those of it.
The scope and the result variable are left out, since they are new in the typed routine.
The table is that of the whole program, as this is where handles are read. -/
structure Lowered (table : SymbolTable) (r : Parsed.Routine) (routine : Typed.Routine) :
    Prop where
  name : routine.name = r.name
  form : formOf routine.kind = r.form
  binding : routine.binding.map Typed.Binding.toParsed = r.binding
  location : routine.location = r.location
  parameters : routine.parameters.mapM (eraseParameter? table) = some r.parameters
  body : routine.body.mapM (eraseAssignment? table) = some r.body

/-! ### What was resolved erases to what it was resolved from -/

variable {table : SymbolTable} {scope : ScopeId}

/-- The symbol that a name is resolved to bears that name. In a table that is not well
bound a scope could have it under another. -/
theorem nameOf?_of_findVariable? (hbound : table.WellBound) {name : String} {symbol : SymbolId}
    {v : Typed.Variable} (hfound : table.findVariable? scope name = some (symbol, v)) :
    nameOf? table symbol = some name := by
  have hsymbol := (SymbolTable.findVariable?_eq_some_iff.mp hfound).2
  unfold nameOf?
  rw [hsymbol, Option.map_some, ← hbound.name_of_findVariable? hfound]
  rfl

/-- A name gets back the name it was resolved by, and every other node is kept. The
induction is on the resolution, whose cases are those of the tree. The table must be
well bound, so that the name of a symbol is the one it was found by
(`nameOf?_of_findVariable?`). -/
theorem Resolves.erase? (hbound : table.WellBound) {e : Parsed.Expr} {e' : Typed.Expr}
    (h : Resolves table scope e e') : erase? table e' = some e := by
  induction h with
  | name hfound => simp [Analysis.erase?, nameOf?_of_findVariable? hbound hfound]
  | literal => rfl
  | binary _ _ _ ihl ihr => simp [Analysis.erase?, ihl, ihr]

/-- A resolved assignment erases to the one it was resolved from, on both sides and with
its location. -/
theorem ResolvesAssignment.erase? {options : Options} (hbound : table.WellBound)
    {a : Parsed.Assignment} {a' : Typed.Assignment}
    (h : ResolvesAssignment options table scope a a') : eraseAssignment? table a' = some a := by
  have htarget := h.target.erase? hbound
  have hvalue := h.value.erase? hbound
  simp [eraseAssignment?, htarget, hvalue, h.location]

/-- A linked parameter goes back to the dummy argument it was linked for.
`linkParameter` looks a name up as resolution does, and the place is that of the
argument rather than of the declaration. -/
theorem eraseParameter?_of_link (hbound : table.WellBound) {a : Parsed.Parameter}
    {e : Typed.Expr} (h : linkParameter table scope a = .ok e) :
    eraseParameter? table e = some a := by
  obtain ⟨symbol, v, hfound, rfl⟩ := linkParameter_eq_ok_iff.mp h
  have hname : nameOf? table symbol = some a.name := nameOf?_of_findVariable? hbound hfound
  simp [eraseParameter?, hname]

/-- Erasing each element of a list gives back the list that the elements came from. -/
theorem mapM_eq_some_of_forall₂ {α β : Type} {f : β → Option α} {xs : List α} {ys : List β}
    (h : List.Forall₂ (fun x y => f y = some x) xs ys) : ys.mapM f = some xs := by
  induction h with
  | nil => rfl
  | cons hxy _ ih => simp [hxy, ih]

/-! ### Erasing depends on the declarations only -/

section Congr

variable {table' : SymbolTable}

/-- Tables with the same skeleton give a handle the same name, since `Typed.Symbol`
keeps its name whatever is filled in. -/
theorem nameOf?_congr (h : table.skeleton = table'.skeleton) : nameOf? table = nameOf? table' :=
  funext (SymbolTable.symbolName?_congr h)

/-- Tables with the same skeleton erase an expression alike. So a tree may be erased in
the table of the finished program, which is not the one it was resolved in. -/
theorem erase?_congr (h : table.skeleton = table'.skeleton) (e : Typed.Expr) :
    erase? table e = erase? table' e := by
  induction e with
  | var symbol scope type location => simp only [erase?, nameOf?_congr h]
  | literal value type location => rfl
  | binary op left right type location ihl ihr => simp only [erase?, ihl, ihr]

/-- Tables with the same skeleton erase an assignment alike. -/
theorem eraseAssignment?_congr (h : table.skeleton = table'.skeleton) :
    eraseAssignment? table = eraseAssignment? table' := by
  funext a
  simp only [eraseAssignment?, erase?_congr h]

/-- Tables with the same skeleton erase a parameter alike, or fail alike where it is no
variable. -/
theorem eraseParameter?_congr (h : table.skeleton = table'.skeleton) :
    eraseParameter? table = eraseParameter? table' := by
  funext e
  cases e with
  | var symbol scope type location => simp only [eraseParameter?, nameOf?_congr h]
  | literal value type location => rfl
  | binary op left right type location => rfl

end Congr

/-! ### Analysed programs -/

/-- A routine is declared with the form of its heading. This holds for any number its
result variable may have got. -/
theorem formOf_kindOf (r : Parsed.Routine) (first : SymbolId) (scope : ScopeId) :
    formOf (kindOf r first scope) = r.form := by
  unfold kindOf resultVariable?
  cases r.form <;> rfl

variable {options : Options} {t : Parsed.Program} {p : Program} {r : Parsed.Routine}
  {id : SymbolId}

/-- After both passes have succeeded, the handle of a routine leads to the routine as it
was declared, with the body and the parameters that were planned for it in its own
scope. Both plans are read in the declared program, though linking runs on what
resolution has left. -/
theorem DeclaredFrom.exists_filled (h : DeclaredFrom t.routines p)
    (hresolve : (resolve options t p).result.outcome = .ok ())
    (hlink : (link t (resolve options t p).program).result.outcome = .ok ())
    (hr : r ∈ t.routines) (hid : DeclaredAs p.table r id) :
    ∃ first scope body linked,
      p.findRoutine? r.name = some (id, declaredRoutine r first scope) ∧
      List.Forall₂ (ResolvesAssignment options p.table scope) r.body body ∧
      List.Forall₂ (fun a e => linkParameter p.table scope a = .ok e) r.parameters linked ∧
      (link t (resolve options t p).program).program.table.symbol? id =
        some (.routine { declaredRoutine r first scope with
          parameters := linked, body := body }) := by
  obtain ⟨first, scope, hsymbol, -⟩ := hid.routine
  have hfound := hid.findRoutine? hsymbol
  have hresolved : (resolve options t p).program.skeleton = p.skeleton :=
    skeleton_afterSession p [.resolve options t]
  -- Resolution starts from the declared program, and linking from what it has left.
  have hbodies : ∃ body, (bodies options).plan p r = .ok (id, body) ∧
      (resolve options t p).program.table.symbol? id =
        (p.table.symbol? id).map (·.mapRoutine ((bodies options).put body)) := by
    rw [resolve_eq_run] at hresolve ⊢
    exact (bodies options).symbol?_run h rfl hresolve hr hid
  have hparameters : ∃ linked, parameters.plan p r = .ok (id, linked) ∧
      (link t (resolve options t p).program).program.table.symbol? id =
        ((resolve options t p).program.table.symbol? id).map
          (·.mapRoutine (parameters.put linked)) := by
    rw [link_eq_run] at hlink ⊢
    exact parameters.symbol?_run h hresolved hlink hr hid
  obtain ⟨body, hplanBody, hsymbolBody⟩ := hbodies
  obtain ⟨linked, hplanLinked, hsymbolLinked⟩ := hparameters
  obtain ⟨_, hfoundBody, hbody⟩ := plan_bodies_eq_ok_iff.mp hplanBody
  obtain ⟨_, hfoundLinked, hlink'⟩ := plan_parameters_eq_ok_iff.mp hplanLinked
  -- Both plans were made for the routine as it was declared, in its own scope.
  rw [hfound] at hfoundBody hfoundLinked
  cases hfoundBody
  cases hfoundLinked
  refine ⟨first, scope, body, linked, hfound, hbody, hlink', ?_⟩
  rw [hsymbolLinked, hsymbolBody, hsymbol]
  rfl

/-- After both passes have succeeded, the handle of a routine leads to one that is
lowered from it. What is written there was planned on the declared program, which is
well bound. The parts are erased in the last table, and `erase?_congr` takes them back
to the one they were resolved in. -/
theorem DeclaredFrom.exists_lowered (h : DeclaredFrom t.routines p)
    (hresolve : (resolve options t p).result.outcome = .ok ())
    (hlink : (link t (resolve options t p).program).result.outcome = .ok ())
    (hr : r ∈ t.routines) (hid : DeclaredAs p.table r id) :
    ∃ routine,
      ((link t (resolve options t p).program).program.table.symbol? id).bind
        Typed.Symbol.toRoutine? = some routine ∧
      Lowered (link t (resolve options t p).program).program.table r routine := by
  obtain ⟨first, scope, body, linked, -, hbody, hlinked, hsymbol⟩ :=
    h.exists_filled hresolve hlink hr hid
  have hskeleton : (link t (resolve options t p).program).program.skeleton = p.skeleton :=
    skeleton_afterSession p [.resolve options t, .link t]
  have htable := Program.table_skeleton_congr hskeleton
  refine ⟨_, by rw [hsymbol]; rfl, ?_⟩
  exact {
    name := rfl
    form := formOf_kindOf r first scope
    binding := Typed.Binding.map_toParsed_map_ofParsed r.binding
    location := rfl
    parameters := by
      -- The names are read in the last table, where they are what they were at first.
      rw [eraseParameter?_congr htable]
      exact mapM_eq_some_of_forall₂
        (hlinked.imp fun a e => eraseParameter?_of_link h.wellBound)
    body := by
      rw [eraseAssignment?_congr htable]
      exact mapM_eq_some_of_forall₂ (hbody.imp fun a a' ha => ha.erase? h.wellBound) }

/-- An analysed program has one routine for each routine of the parsed program, in the
same order. Its name, form, binding and location are those of the parsed routine, its
parameters are variables with the names and places of the dummy arguments, and its body
is that of the parsed routine node for node once the types are dropped and the handles
are read as names.

Both lists of routines go with the list of items, and `DeclaredFrom.exists_lowered` says
what has become of one routine. Either check of assignments will do, since it writes
nothing. -/
theorem lowered_of_analyze {q : Program} (h : (analyze options t).outcome = .ok q) :
    List.Forall₂ (Lowered q.table) t.routines q.routines := by
  obtain ⟨p, hp, hresolve, hlink, rfl⟩ := analyze_eq_ok_iff.mp h
  have hdeclared := declaredFrom_of_declare hp
  have hitems : (link t (resolve options t p).program).program.items = p.items :=
    items_afterSession p [.resolve options t, .link t]
  -- Each routine is paired with its handle and known to be one of the program's.
  have hpairs := (List.forall₂_and_left _ _).mpr ⟨fun r hr => hr, hdeclared.items⟩
  have hroutines : List.Forall₂ (Lowered (link t (resolve options t p).program).program.table)
      (t.routines.filterMap some) (link t (resolve options t p).program).program.routines := by
    unfold Program.routines
    rw [hitems]
    refine List.rel_filterMap (fun r id hid => ?_) hpairs
    obtain ⟨routine, hroutine, hlowered⟩ := hdeclared.exists_lowered hresolve hlink hid.1 hid.2
    rw [hroutine]
    exact .some hlowered
  rw [List.filterMap_some] at hroutines
  exact hroutines

/-- A function that names a dummy argument twice and sets its result, and a subroutine
whose assignment was given a location of its own. The function has a binding, so all
parts of a heading are there. -/
def areaAndReset : Parsed.Program where
  routines := [
    { form := .function
      name := "area"
      parameters := [⟨"a", .onLine 1 15 15⟩, ⟨"a", .onLine 1 18 18⟩]
      declarations := [⟨"a", "integer", [⟨"intent", ["in"], .onLine 2 12 21⟩], .onLine 2 3 26⟩]
      body := [.of (.name "area" (.onLine 3 3 6)) (.name "a" (.onLine 3 10 10))]
      binding := some ⟨"c", some "area_of"⟩
      location := .onLine 1 1 19 },
    { form := .subroutine
      name := "reset"
      parameters := []
      declarations := [⟨"x", "real", [], .onLine 6 3 11⟩]
      body := [⟨.name "x" (.onLine 7 3 3),
        .binary .pow (.literal 2 (.onLine 7 7 7)) (.literal (-1) (.onLine 7 10 11)) .nowhere,
        .nowhere⟩]
      binding := none
      location := .onLine 5 1 16 }]

/-- Both routines are found again in the analysed program, under the strict check as well. -/
theorem lowered_areaAndReset :
    ∃ q, (analyze ⟨true⟩ areaAndReset).outcome = .ok q ∧
      List.Forall₂ (Lowered q.table) areaAndReset.routines q.routines := by
  have hok : ∃ q, (analyze ⟨true⟩ areaAndReset).outcome = .ok q := ⟨_, rfl⟩
  obtain ⟨q, hq⟩ := hok
  exact ⟨q, hq, lowered_of_analyze hq⟩

end Analysis

end FortranFront
