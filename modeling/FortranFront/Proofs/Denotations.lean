import FortranFront.Proofs.LateFailure
import FortranFront.Proofs.Layout

/-!
# `FortranFront.Proofs.Denotations`: what the names of a declared program stand for

Three rules decide what a name stands for in a routine. The result of a function
takes the function's own name, of the declarations of any other name the first one
counts, and of its intents the last. `Describes` says what variable a declaration
stands for, and `Denotes` puts the rules together for one routine.

* `describes_of_variableFor`: a variable has the type, the intent and the place
  that its declaration gives it.
* `denotes_layout`: the scope of a routine binds its result and the variables of
  first declarations, wherever the routine comes in the program.
* `denotations_of_declare`: so every name of a declared program stands for what the
  rules say, and no routine has parameters or a body yet.
-/

set_option autoImplicit false

namespace FortranFront

/-- A word spells one keyword at most, since the keyword is the word in small letters.
So the order in which keywords are tried does not matter. -/
theorem Spells.unique {word keyword keyword' : String} (h : Spells word keyword)
    (h' : Spells word keyword') : keyword = keyword' :=
  String.toList_inj.mp (h.symm.trans h')

/-- A type name names the family it spells, with the default kind. No other kind can be
asked for by a name. The two keywords are tried one after the other, and `Spells.unique`
says that a word which spells the second does not spell the first. -/
theorem ScalarType.ofName?_eq_some_iff {name : String} {type : ScalarType} :
    ScalarType.ofName? name = some type ↔
      Spells name type.family.keyword ∧ type.kind = ScalarType.defaultKind := by
  unfold ScalarType.ofName?
  constructor
  · intro h
    split at h
    · cases h
      exact ⟨‹_›, rfl⟩
    · split at h
      · cases h
        exact ⟨‹_›, rfl⟩
      · cases h
  · obtain ⟨family, kind⟩ := type
    rintro ⟨hspells, hkind⟩
    obtain rfl : kind = ScalarType.defaultKind := hkind
    cases family with
    | integer => exact if_pos hspells
    | real =>
        -- What spells `real` does not spell `integer`, which is tried first.
        have hother : ¬ Spells name Family.integer.keyword := fun h =>
          absurd (h.unique hspells) (by decide)
        rw [if_neg hother]
        exact if_pos hspells

/-- A specifier names the intent it spells. There is no word for the lack of an intent,
so `unspecified` is never read. The three words are tried in a row, and a word spells
only one of them. -/
theorem Intent.ofSpecifier?_eq_some_iff {specifier : String} {intent : Intent} :
    Intent.ofSpecifier? specifier = some intent ↔
      intent ≠ .unspecified ∧ Spells specifier intent.word := by
  unfold Intent.ofSpecifier?
  constructor
  · intro h
    split at h
    · cases h
      exact ⟨nofun, ‹_›⟩
    · split at h
      · cases h
        exact ⟨nofun, ‹_›⟩
      · split at h
        · cases h
          exact ⟨nofun, ‹_›⟩
        · cases h
  · rintro ⟨hgiven, hspells⟩
    -- Of the three words the specifier spells this one only.
    have hother : ∀ i : Intent, i.word ≠ intent.word → ¬ Spells specifier i.word :=
      fun i hne h => hne (h.unique hspells)
    cases intent with
    | unspecified => exact absurd rfl hgiven
    | input => rw [if_pos hspells]
    | output => rw [if_neg (hother .input (by decide)), if_pos hspells]
    | inout =>
        rw [if_neg (hother .input (by decide)), if_neg (hother .output (by decide)),
          if_pos hspells]

namespace Analysis

open Typed (Program Variable)

/-! ### One declaration -/

/-- The last of the intents among some attributes, named by its first argument. Without
any intent none is given. Attributes of other names and further arguments are not looked
at. -/
def GivesIntent (attributes : List Parsed.Attribute) (intent : Intent) : Prop :=
  match (attributes.filter (IsIntent ·)).getLast? with
  | none => intent = .unspecified
  | some a => intent ≠ .unspecified ∧ ∃ specifier ∈ a.args.head?, Spells specifier intent.word

/-- The variable that a declaration stands for: the type is the one that its type name
spells, and four bytes wide, and the intent is the last one it gives. Nothing of the
program around it has a part in this. -/
structure Describes (d : Parsed.Declaration) (v : Variable) : Prop where
  name : v.name = d.name
  family : Spells d.typeName v.type.family.keyword
  kind : v.type.kind = 4
  intent : GivesIntent d.attributes v.intent
  location : v.location = d.location

/-- The intent of a variable is the last one its declaration gives. The walk over the
attributes keeps the last value, which is what `foldlM_last_eq_ok` says of such walks.
Its steps do not fail here, so every intent among them has a specifier that names
one. -/
theorem givesIntent_of_intentOf {attributes : List Parsed.Attribute} {intent : Intent}
    (h : intentOf attributes = .ok intent) : GivesIntent attributes intent := by
  have hlast := foldlM_last_eq_ok h
  unfold GivesIntent
  cases ha : (attributes.filter (IsIntent ·)).getLast? with
  | none => simpa only [ha] using hlast
  | some a =>
      have hnamed : intentNamed a = .ok intent := by simpa only [ha] using hlast
      unfold intentNamed at hnamed
      -- Without an argument the last step would have failed.
      cases hargs : a.args with
      | nil => simp [hargs] at hnamed
      | cons specifier rest =>
          rw [hargs] at hnamed
          have hspells := Intent.ofSpecifier?_eq_some_iff.mp (blameNone_eq_ok_iff.mp hnamed)
          exact ⟨hspells.1, specifier, by simp [hargs], hspells.2⟩

/-- A declaration without a violation describes its variable. Each field is what
`variableFor` has copied or read. That its intent is the last one given is
`givesIntent_of_intentOf`. -/
theorem describes_of_variableFor {d : Parsed.Declaration} {v : Variable}
    (h : variableFor d = .ok v) : Describes d v := by
  obtain ⟨type, htype, hrest⟩ := bind_eq_ok_iff.mp h
  obtain ⟨intent, hintent, hlast⟩ := bind_eq_ok_iff.mp hrest
  cases hlast
  obtain ⟨hfamily, hkind⟩ := ScalarType.ofName?_eq_some_iff.mp (blameNone_eq_ok_iff.mp htype)
  exact ⟨rfl, hfamily, hkind, givesIntent_of_intentOf hintent, rfl⟩

/-! ### One routine -/

/-- What the names of a routine stand for in a program that has just been declared: the
name of a function for its result, a declared name for the variable of its first
declaration, and any other name for nothing. The kind of a function knows the handle of
its result. All of it is asked through `variableOf?` and `routine?`, so no handle is
named. -/
structure Denotes (p : Program) (r : Parsed.Routine) : Prop where
  own : r.form = .function →
    p.variableOf? r.name r.name = some ⟨r.name, .unspecified, .integer 8, r.location⟩
  first : ∀ x d, ¬ (r.form = .function ∧ x = r.name) →
    r.declarations.find? (·.name = x) = some d →
      ∃ v, p.variableOf? r.name x = some v ∧ Describes d v
  other : ∀ x, ¬ (r.form = .function ∧ x = r.name) → ¬ r.Declares x →
    p.variableOf? r.name x = none
  result : ∃ routine, p.routine? r.name = some routine ∧
    match r.form with
    | .subroutine => routine.result? = none
    | .function => ∃ symbol,
        routine.result? = some (.var symbol routine.scope (.integer 8) r.location) ∧
          p.table.findVariable? routine.scope r.name =
            some (symbol, ⟨r.name, .unspecified, .integer 8, r.location⟩)

section Layout

variable {before : List Parsed.Routine} {r : Parsed.Routine} {after : List Parsed.Routine}

/-- A routine of a program that is laid out is found under its name. That the table was
built by declarations rules out that another symbol has taken the name. -/
theorem findRoutine?_layout (hbuilt : (layout (before ++ r :: after)).table.Built)
    (hbound : (layout (before ++ r :: after)).table.WellBound) :
    (layout (before ++ r :: after)).findRoutine? r.name =
      some (routineHandle before r, declaredRoutine r ⟨extent before⟩ (scopeAfter before)) :=
  Program.findRoutine?_eq_some_iff.mpr
    ⟨hbuilt.lookup_routine hbound symbol?_layout_routine, symbol?_layout_routine⟩

/-- A variable of a routine is what its name stands for, under the handle of its
position. -/
theorem exists_findVariable?_layout (after : List Parsed.Routine)
    (hknown : KnownAfter r r.declarations (variablesOf r)) {v : Variable}
    (hv : v ∈ variablesOf r) :
    ∃ symbol, (layout (before ++ r :: after)).table.findVariable? (scopeAfter before) v.name =
      some (symbol, v) := by
  obtain ⟨k, hk⟩ := List.getElem?_of_mem hv
  exact ⟨_, findVariable?_layout hknown hk⟩

/-- A name of a routine that is no variable of it stands for nothing, even if there is a
routine of that name. -/
theorem findVariable?_layout_eq_none {name : String} (h : name ∉ (variablesOf r).map (·.name)) :
    (layout (before ++ r :: after)).table.findVariable? (scopeAfter before) name = none := by
  rw [SymbolTable.findVariable?, lookup_layout_eq_none h]
  rfl

/-- The first declaration of a name has a variable, unless the name is the function's
own. Such a declaration decides, and all that decide have been read without a
violation. -/
theorem exists_mem_variablesOf (hknown : KnownAfter r r.declarations (variablesOf r))
    {name : String} {d : Parsed.Declaration} (hfree : name ∉ ownNames r)
    (hd : r.declarations.find? (·.name = name) = some d) :
    ∃ v ∈ variablesOf r, variableFor d = .ok v := by
  obtain ⟨vs, hvs, hall⟩ := hknown
  obtain ⟨v, hv, hvariable⟩ := exists_partner hall (mem_decidingAmong_of_find? hfree hd)
  exact ⟨v, hvs ▸ List.mem_append_right _ hv, hvariable⟩

/-- The result of a function is its first variable, and the function's name stands for
it. It is there before any declaration is read. -/
theorem findVariable?_layout_result (after : List Parsed.Routine)
    (hknown : KnownAfter r r.declarations (variablesOf r)) (hform : r.form = .function) :
    (layout (before ++ r :: after)).table.findVariable? (scopeAfter before) r.name =
      some (⟨extent before⟩, ⟨r.name, .unspecified, .integer 8, r.location⟩) := by
  have hfirst : (variablesOf r)[0]? = some ⟨r.name, .unspecified, resultType, r.location⟩ := by
    simp [variablesOf, resultVariable?, hform]
  exact findVariable?_layout hknown hfirst

/-- The variable of a name in a routine is the one its scope binds the name to. This
leads from questions about routine names to one about a scope. -/
theorem variableOf?_layout (hbuilt : (layout (before ++ r :: after)).table.Built)
    (hbound : (layout (before ++ r :: after)).table.WellBound) (name : String) :
    (layout (before ++ r :: after)).variableOf? r.name name =
      ((layout (before ++ r :: after)).table.findVariable? (scopeAfter before) name).map (·.2) := by
  unfold Program.variableOf? Program.routine?
  rw [findRoutine?_layout hbuilt hbound]
  show ((layout _).table.findVariable? (scopeAfter before) name).bind _ = _
  rw [Option.map_eq_bind]
  rfl

/-- The names of a routine stand for what the rules say, wherever it is laid out. What
comes before it only moves its handles, and `Denotes` names none. Each of the four
fields is a question to the scope of the routine, which `lookup_layout_var` and
`lookup_layout_eq_none` answer. -/
theorem denotes_layout (hbuilt : (layout (before ++ r :: after)).table.Built)
    (hbound : (layout (before ++ r :: after)).table.WellBound)
    (hknown : KnownAfter r r.declarations (variablesOf r)) :
    Denotes (layout (before ++ r :: after)) r := by
  constructor
  case own =>
    intro hform
    rw [variableOf?_layout hbuilt hbound, findVariable?_layout_result after hknown hform]
    rfl
  -- What is not the function's own is decided by its first declaration.
  case first =>
    intro x d hfree hd
    rw [← mem_ownNames] at hfree
    obtain ⟨v, hv, hvariable⟩ := exists_mem_variablesOf hknown hfree hd
    have hname : v.name = x := by
      rw [name_of_variableFor hvariable]
      simpa using List.find?_some hd
    obtain ⟨symbol, hfound⟩ := exists_findVariable?_layout after hknown hv
    refine ⟨v, ?_, describes_of_variableFor hvariable⟩
    rw [variableOf?_layout hbuilt hbound, ← hname, hfound]
    rfl
  -- A name without a declaration is not among the variables.
  case other =>
    intro x hfree hx
    have hnone : x ∉ (variablesOf r).map (·.name) := by
      rw [hknown.mem_names, mem_ownNames]
      rintro (hown | hdeclared)
      · exact hfree hown
      · exact hx (List.mem_map.mp hdeclared)
    rw [variableOf?_layout hbuilt hbound, findVariable?_layout_eq_none hnone]
    rfl
  case result =>
    refine ⟨declaredRoutine r ⟨extent before⟩ (scopeAfter before), ?_, ?_⟩
    · rw [Program.routine?, findRoutine?_layout hbuilt hbound]
      rfl
    · cases hform : r.form with
      | subroutine => simp [declaredRoutine, Typed.Routine.result?, kindOf, resultVariable?, hform]
      | function =>
          refine ⟨⟨extent before⟩, ?_, findVariable?_layout_result after hknown hform⟩
          simp [declaredRoutine, Typed.Routine.result?, kindOf, resultVariable?, hform, resultType]

end Layout

/-! ### A whole program -/

/-- A declared program has no routine with parameters or a body. The passes after the
declaration fill them in. -/
theorem empty_of_symbol?_layout {rs : List Parsed.Routine} {id : SymbolId} {routine : Typed.Routine}
    (h : (layout rs).table.symbol? id = some (.routine routine)) :
    routine.parameters = [] ∧ routine.body = [] := by
  obtain ⟨before, r, hblock⟩ := exists_blockOf_of_symbol?_layout h
  obtain hlocal | hown := List.mem_append.mp hblock
  · obtain ⟨v, -, hv⟩ := List.mem_map.mp hlocal
    cases hv
  · cases List.mem_singleton.mp hown
    exact ⟨rfl, rfl⟩

/-- Every name of a program that is declared stands for what the rules say. A routine is
found under each name of an item and under no other name, and no routine has parameters
or a body.

The program is replaced by the `layout` of its routines, in which each of them is split
off with what stands before and after it. What its names stand for is then
`denotes_layout`. -/
theorem denotations_of_declare {t : Parsed.Program} {p : Program}
    (h : (declare t).outcome = .ok p) :
    (∀ r ∈ t.routines, Denotes p r) ∧
      (∀ name, (p.routine? name).isSome ↔ ∃ r ∈ t.routines, r.name = name) ∧
      ∀ id routine, p.table.symbol? id = some (.routine routine) →
        routine.parameters = [] ∧ routine.body = [] := by
  have hdeclared := declaredFrom_of_declare h
  have hbuilt := built_of_declare h
  obtain ⟨rfl, hknown⟩ := eq_layout_of_declare h
  refine ⟨fun r hr => ?_, fun name => ?_, fun id routine hroutine => empty_of_symbol?_layout hroutine⟩
  · obtain ⟨before, after, hsplit⟩ := List.append_of_mem hr
    have hbound := hdeclared.wellBound
    rw [hsplit] at hbuilt hbound ⊢
    exact denotes_layout hbuilt hbound (hknown r hr)
  · -- A routine that is found is bound in the unit scope, and just the items are bound there.
    constructor
    · intro hsome
      obtain ⟨routine, hroutine⟩ := Option.isSome_iff_exists.mp hsome
      obtain ⟨found, hfound, -⟩ := Option.map_eq_some_iff.mp hroutine
      have hlookup := (Program.findRoutine?_eq_some_iff.mp hfound).1
      have hname := (hdeclared.isSome_lookup name).mp (Option.isSome_iff_exists.mpr ⟨_, hlookup⟩)
      exact List.mem_map.mp hname
    · rintro ⟨r, hr, rfl⟩
      obtain ⟨id, -, hid⟩ := hdeclared.exists_declaredAs hr
      obtain ⟨first, scope, hsymbol, -⟩ := hid.routine
      rw [Program.routine?, hid.findRoutine? hsymbol]
      rfl

/-- A function that declares its own name, which changes nothing, and its argument
twice. Of the two intents of the first declaration the second one counts. The type name
of the last declaration is not even a known one. -/
def squared : Parsed.Routine where
  form := .function
  name := "squared"
  parameters := [⟨"x", .onLine 1 18 18⟩]
  declarations :=
    [⟨"squared", "real", [], .onLine 2 3 17⟩,
      ⟨"x", "REAL", [⟨"intent", ["out"], .onLine 3 9 19⟩, ⟨"Intent", ["in"], .onLine 3 22 31⟩],
        .onLine 3 3 36⟩,
      ⟨"x", "complex", [], .onLine 4 3 14⟩]
  body := []
  binding := none
  location := .onLine 1 1 19

/-- The names of that function stand for its result and for the variable of the argument's first
declaration, with a routine before it and a routine after it. -/
theorem denotations_squared :
    ∃ p, (declare ⟨[twice, squared, { twice with name := "thrice" }]⟩).outcome = .ok p ∧
      p.variableOf? "squared" "squared" =
        some ⟨"squared", .unspecified, .integer 8, .onLine 1 1 19⟩ ∧
      p.variableOf? "squared" "x" = some ⟨"x", .input, .real 4, .onLine 3 3 36⟩ ∧
      p.variableOf? "squared" "y" = none ∧ Denotes p squared :=
  ⟨_, rfl, rfl, rfl, rfl,
    (denotations_of_declare (t := ⟨[twice, squared, { twice with name := "thrice" }]⟩) rfl).1
      squared (by simp)⟩

end Analysis

end FortranFront
