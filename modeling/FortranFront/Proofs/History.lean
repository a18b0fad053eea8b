import FortranFront.Proofs.Complaint
import FortranFront.Proofs.SymbolTable
import Mathlib.Data.Finset.Card

/-!
# `FortranFront.Proofs.History`: a symbol table as the record of its history

A table comes about by operations that open scopes and declare symbols. A history
is a list of such operations, and what each of them answers can be written down
beside it. `SymbolTable.Remembers` says that every question a table can be asked
is answered by looking through this list, without any table: a name is bound to
the handle that its first declaration in the scope got, and a handle leads to the
symbol of the declaration that it was the answer to.

* `isSome_lookup_tableAfter`: a scope binds just the names that were declared in it.
* `lookup_tableAfter`: the first declaration of a name decides what it is bound to.
* `symbol?_tableAfter`: a handle leads to the symbol that it was handed out for,
  however long the history goes on.
* `scopeHandles_answered` and `symbolHandles_answered`: handles are numbered in the
  order in which they are handed out.
* `exists_scope?_tableAfter`: a scope is as large as there are different names
  declared in it.
* `remembers_tableAfter`: so a table remembers every history in which symbols are
  declared in scopes that are there.
-/

set_option autoImplicit false

namespace FortranFront.SymbolTable

open Typed (Symbol)

/-- A step in the growth of a table. There are no others, since a table never loses
anything. Changes to routines by `modify` are left out, as they answer nothing and touch
no name. -/
inductive Operation where
  | openScope (kind : ScopeKind)
  | declare (scope : ScopeId) (symbol : Symbol)

/-- What an operation answers: the handle of the scope it has opened, or the handle of
the symbol, unless the symbol could not be declared. -/
inductive Answer where
  | scope (id : ScopeId)
  | symbol (id : Option SymbolId)
deriving DecidableEq

namespace Answer

/-- The handle of a scope that has been opened, if the answer is to such an
operation. -/
def scope? : Answer → Option ScopeId
  | .scope id => some id
  | .symbol _ => none

/-- The handle of a symbol that has been declared. A declaration that was refused has
none. -/
def symbol? : Answer → Option SymbolId
  | .scope _ => none
  | .symbol id => id

end Answer

namespace Operation

/-- The table after an operation. A declaration that is refused leaves it as it is. -/
def apply (t : SymbolTable) : Operation → SymbolTable
  | .openScope kind => t.openScope kind
  | .declare scope symbol => t.declare scope symbol

/-- The answer to an operation on a table, which depends on the table before it. -/
def answer (t : SymbolTable) : Operation → Answer
  | .openScope _ => .scope t.nextScope
  | .declare scope symbol => .symbol ((t.declare? scope symbol).map (·.1))

/-- The kind of the scope that is opened, if one is. It can be read off the operation
without a table. -/
def kind? : Operation → Option ScopeKind
  | .openScope kind => some kind
  | .declare _ _ => none

/-- The name that is declared in a scope, if one is. Whether the declaration is refused
does not matter here. -/
def nameIn? (scope : ScopeId) : Operation → Option String
  | .openScope _ => none
  | .declare s symbol => if s = scope then some symbol.name else none

end Operation

/-! ### Histories -/

/-- The kinds of the scopes that a history opens, in the order of their handles. -/
def openedKinds (history : List Operation) : List ScopeKind := history.filterMap Operation.kind?

/-- The names that a history declares in a scope, with all repeats. So a name that was
refused is in the list more than once. -/
def namesIn (scope : ScopeId) (history : List Operation) : List String :=
  history.filterMap (Operation.nameIn? scope)

/-- The table that a history leads to, from the one without scopes and symbols. -/
def tableAfter (history : List Operation) : SymbolTable := history.foldl Operation.apply .empty

/-- The operations of a history, each with its answer. An answer is that of the table
which the operations before have led to. Only this list is looked at in what follows,
and the table of the end is compared with it. -/
def answered (history : List Operation) : List (Operation × Answer) :=
  (withEarlier history).map fun (before, op) => (op, op.answer (tableAfter before))

/-- The answer that the first declaration of a name in a scope got. It is looked for in
the list of answers, without any table. -/
def firstHandle? (scope : ScopeId) (name : String) (history : List Operation) :
    Option SymbolId :=
  ((answered history).find? fun entry => entry.1.nameIn? scope = some name).bind
    (·.2.symbol?)

/-- A symbol is declared in a scope that was opened before. Other operations fit
anywhere. -/
def Operation.FitsAfter (before : List Operation) : Operation → Prop
  | .openScope _ => True
  | .declare scope _ => scope.index < (openedKinds before).length

instance (before : List Operation) : DecidablePred (Operation.FitsAfter before)
  | .openScope _ => inferInstanceAs (Decidable True)
  | .declare scope _ => inferInstanceAs (Decidable (scope.index < (openedKinds before).length))

/-- Symbols are declared only in scopes that were opened before. The passes of the
analysis never do anything else, as their handles come from answers. -/
def Legal (history : List Operation) : Prop :=
  ∀ entry ∈ withEarlier history, entry.2.FitsAfter entry.1

instance (history : List Operation) : Decidable (Legal history) :=
  inferInstanceAs (Decidable (∀ entry ∈ withEarlier history, entry.2.FitsAfter entry.1))

/-- Whatever a table is asked, its history has the answer. Each field takes one
question, and no field speaks of how the table stores things. Lookups, symbols and
counts are all told from the operations and the answers that were given to them. -/
structure Remembers (t : SymbolTable) (history : List Operation) : Prop where
  /-- The scopes are numbered from zero in the order they were opened. -/
  scopeHandles : (answered history).filterMap (·.2.scope?) =
    (List.range (openedKinds history).length).map ScopeId.mk
  /-- The symbols are numbered from zero in the order they were declared. -/
  symbolHandles : (answered history).filterMap (·.2.symbol?) =
    (List.range t.symbolCount).map SymbolId.mk
  /-- Each declaration was refused if its name had been declared in the scope before, and only
  then. A declaration that was refused changed nothing. -/
  refused : ∀ before scope symbol after, history = before ++ .declare scope symbol :: after →
    (((tableAfter before).declare? scope symbol = none ↔ symbol.name ∈ namesIn scope before) ∧
      ((tableAfter before).declare? scope symbol = none →
        tableAfter (before ++ [.declare scope symbol]) = tableAfter before))
  /-- A name is bound to the handle that its first declaration got. -/
  lookup : ∀ scope name, t.lookup scope name = firstHandle? scope name history
  /-- A name that was never declared in a scope is not bound there, and every other one is. -/
  bound : ∀ scope name, (t.lookup scope name).isSome ↔ name ∈ namesIn scope history
  /-- A scope that was opened is still there, with its kind, and binds each of the names that
  were declared in it once. -/
  scope : ∀ scope : ScopeId, scope.index < (openedKinds history).length →
    ∃ s, t.scope? scope = some s ∧ (openedKinds history)[scope.index]? = some s.kind ∧
      s.size = (namesIn scope history).toFinset.card ∧ (s.isEmpty ↔ s.size = 0) ∧
      ∀ name, s.contains name ↔ (t.lookup scope name).isSome
  /-- There are no other scopes. -/
  scopeCount : t.scopeCount = (openedKinds history).length
  /-- A handle leads to the symbol of the declaration that it was the answer to. -/
  symbol : ∀ id symbol, t.symbol? id = some symbol ↔
    ∃ scope, (.declare scope symbol, .symbol (some id)) ∈ answered history
  /-- There are as many symbols as names are bound in all scopes together. -/
  symbolCount : t.symbolCount = t.bindingCount

/-! ### One operation more -/

section Step

variable {t t' : SymbolTable} {scope : ScopeId} {symbol : Symbol} {id : SymbolId}
  {history : List Operation}

/-- A symbol that cannot be declared is passed over, and the table stays as it is. -/
theorem declare_of_none (h : t.declare? scope symbol = none) : t.declare scope symbol = t := by
  rw [declare, h]
  rfl

/-- A symbol that can be declared leads to the table that comes with its handle. -/
theorem declare_of_some (h : t.declare? scope symbol = some (id, t')) :
    t.declare scope symbol = t' := by
  rw [declare, h]
  rfl

/-- The last operation is applied to the table that the others lead to. All inductions
on a history go from this end, because an answer depends on what comes before the
operation and not on what comes after. -/
theorem tableAfter_append_singleton (history : List Operation) (op : Operation) :
    tableAfter (history ++ [op]) = op.apply (tableAfter history) :=
  List.foldl_append

/-- The last operation is answered by the table that the others lead to, and the answers
before it stay. -/
theorem answered_append_singleton (history : List Operation) (op : Operation) :
    answered (history ++ [op]) =
      answered history ++ [(op, op.answer (tableAfter history))] := by
  rw [answered, withEarlier_append_singleton, List.map_append]
  rfl

/-- The last operation adds the name it declares in the scope, if it does so. -/
theorem namesIn_append_singleton (scope : ScopeId) (history : List Operation) (op : Operation) :
    namesIn scope (history ++ [op]) = namesIn scope history ++ (op.nameIn? scope).toList := by
  rw [namesIn, List.filterMap_append]
  cases h : op.nameIn? scope <;> simp [namesIn, h]

/-- The last operation adds the kind of the scope it opens, if it opens one. -/
theorem openedKinds_append_singleton (history : List Operation) (op : Operation) :
    openedKinds (history ++ [op]) = openedKinds history ++ op.kind?.toList := by
  rw [openedKinds, List.filterMap_append]
  cases op <;> rfl

/-- A history with an operation more is legal if it was and the operation fits after
it. -/
theorem legal_append_singleton {op : Operation} :
    Legal (history ++ [op]) ↔ Legal history ∧ op.FitsAfter history := by
  unfold Legal
  rw [withEarlier_append_singleton, List.forall_mem_append]
  simp

/-- The operations that a history begins with are a history, and it is legal if the
whole is. -/
theorem Legal.of_append {before after : List Operation} (h : Legal (before ++ after)) :
    Legal before := by
  intro entry hentry
  refine h entry ?_
  rw [withEarlier_append]
  exact List.mem_append_left _ hentry

/-- The operations of a history are all answered, in their order. So nothing is lost
when only the answers are looked through. -/
theorem map_fst_answered (history : List Operation) :
    (answered history).map Prod.fst = history := by
  induction history using List.reverseRecOn with
  | nil => rfl
  | append_singleton history op ih => rw [answered_append_singleton, List.map_append, ih]; rfl

end Step

/-! ### Whole histories -/

variable {history : List Operation} {scope : ScopeId} {name : String}

/-- A table that grows by operations is built from nothing. So `Built` and its lemmas
hold of it, also for histories that are not legal. -/
theorem built_tableAfter (history : List Operation) : (tableAfter history).Built := by
  induction history using List.reverseRecOn with
  | nil => exact .empty
  | append_singleton history op ih =>
      rw [tableAfter_append_singleton]
      cases op with
      | openScope kind => exact .openScope kind ih
      | declare scope symbol => exact ih.declare scope symbol

/-- There are as many scopes as were opened, since a declaration opens none. -/
theorem scopeCount_tableAfter (history : List Operation) :
    (tableAfter history).scopeCount = (openedKinds history).length := by
  induction history using List.reverseRecOn with
  | nil => rfl
  | append_singleton history op ih =>
      rw [tableAfter_append_singleton, openedKinds_append_singleton, List.length_append, ← ih]
      cases op with
      | openScope kind => exact scopeCount_openScope _ kind
      | declare scope symbol => exact scopeCount_declare _ scope symbol

/-- A scope binds the names that were declared in it. In a history that is not legal a
declaration could have come before its scope, and would have been lost. A declaration
that is refused adds no name, but there its name is bound already. -/
theorem isSome_lookup_tableAfter (h : Legal history) :
    ((tableAfter history).lookup scope name).isSome ↔ name ∈ namesIn scope history := by
  induction history using List.reverseRecOn with
  | nil => exact ⟨nofun, nofun⟩
  | append_singleton history op ih =>
      obtain ⟨hlegal, hfits⟩ := legal_append_singleton.mp h
      rw [tableAfter_append_singleton, namesIn_append_singleton, List.mem_append, ← ih hlegal]
      cases op with
      | openScope kind => simp [Operation.apply, Operation.nameIn?]
      | declare s symbol =>
          -- The history is legal, so the scope has been opened.
          have hscope : s.index < (tableAfter history).scopeCount := by
            rw [scopeCount_tableAfter]
            exact hfits
          rw [Operation.apply, isSome_lookup_declare hscope, Operation.nameIn?]
          by_cases hs : s = scope
          · simp [hs]
          · simp [hs, Ne.symm hs]

/-- A declaration is refused if its name was declared in the scope before. There is no
other reason, as the scope is known to be there. -/
theorem declare?_tableAfter_eq_none_iff {symbol : Symbol} (h : Legal history)
    (hfits : (Operation.declare scope symbol).FitsAfter history) :
    (tableAfter history).declare? scope symbol = none ↔ symbol.name ∈ namesIn scope history := by
  have hscope : scope.index < (tableAfter history).scopeCount := by
    rw [scopeCount_tableAfter]
    exact hfits
  rw [← isSome_lookup_tableAfter h, ← Option.not_isSome_iff_eq_none, isSome_declare?_iff hscope,
    ← Option.not_isSome_iff_eq_none, not_not]

/-- An answer to a declaration of a name can be found if the name was declared at
all. -/
theorem find?_answered_eq_none_iff :
    (answered history).find? (fun entry => entry.1.nameIn? scope = some name) = none ↔
      name ∉ namesIn scope history := by
  have hmap : namesIn scope history =
      (answered history).filterMap fun entry => entry.1.nameIn? scope := by
    rw [namesIn, ← map_fst_answered history, List.filterMap_map, map_fst_answered]
    rfl
  rw [List.find?_eq_none, hmap, List.mem_filterMap]
  simp

/-- A name is bound to the handle that its first declaration got, and to nothing before.
The induction is on the history from its end, where the last operation declares the name
or is about something else. -/
theorem lookup_tableAfter (h : Legal history) :
    (tableAfter history).lookup scope name = firstHandle? scope name history := by
  induction history using List.reverseRecOn with
  | nil => rfl
  | append_singleton history op ih =>
      obtain ⟨hlegal, hfits⟩ := legal_append_singleton.mp h
      have hearlier := ih hlegal
      unfold firstHandle? at hearlier ⊢
      rw [tableAfter_append_singleton, answered_append_singleton, List.find?_append]
      by_cases hname : op.nameIn? scope = some name
      · cases op with
        | openScope kind => cases hname
        | declare s symbol =>
            obtain ⟨rfl, rfl⟩ : s = scope ∧ symbol.name = name := by
              simpa [Operation.nameIn?] using hname
            cases hd : (tableAfter history).declare? s symbol with
            | none =>
                -- An earlier declaration was found, and what it got still counts.
                have hmem := (declare?_tableAfter_eq_none_iff hlegal hfits).mp hd
                rw [Operation.apply, declare_of_none hd, hearlier]
                cases hfind : (answered history).find?
                    fun entry => entry.1.nameIn? s = some symbol.name with
                | none => exact absurd hmem (find?_answered_eq_none_iff.mp hfind)
                | some entry => rfl
            | some result =>
                -- No earlier one is found, so this declaration is the first.
                obtain ⟨id, t'⟩ := result
                have hfree : symbol.name ∉ namesIn s history := fun hmem => by
                  rw [(declare?_tableAfter_eq_none_iff hlegal hfits).mpr hmem] at hd
                  cases hd
                rw [Operation.apply, declare_of_some hd, lookup_of_declare? hd,
                  if_pos ⟨rfl, rfl⟩, find?_answered_eq_none_iff.mpr hfree]
                simp [Operation.nameIn?, Operation.answer, Answer.symbol?, hd]
      · -- The operation is about another name or another scope.
        have hlast : [(op, op.answer (tableAfter history))].find?
            (fun entry => entry.1.nameIn? scope = some name) = none := by
          simp [hname]
        rw [hlast, Option.or_none, ← hearlier]
        cases op with
        | openScope kind => exact lookup_openScope _ kind scope name
        | declare s symbol =>
            have hother : ¬ (scope = s ∧ name = symbol.name) := by
              rintro ⟨rfl, rfl⟩
              exact hname (if_pos rfl)
            rw [Operation.apply]
            cases hd : (tableAfter history).declare? s symbol with
            | none => rw [declare_of_none hd]
            | some result => rw [declare_of_some hd, lookup_of_declare? hd, if_neg hother]

/-- A handle leads to the symbol of the declaration that it was the answer to. No later
operation can change that, and no two declarations get one handle. The history need not
be legal for this, as a declaration that comes too early gets no handle. The induction
is on the history from its end, where a new handle is one more than all before it. -/
theorem symbol?_tableAfter {id : SymbolId} {symbol : Symbol} :
    (tableAfter history).symbol? id = some symbol ↔
      ∃ scope, (.declare scope symbol, .symbol (some id)) ∈ answered history := by
  induction history using List.reverseRecOn with
  | nil => exact ⟨nofun, nofun⟩
  | append_singleton history op ih =>
      rw [tableAfter_append_singleton, answered_append_singleton]
      simp only [List.mem_append, List.mem_singleton, exists_or, ← ih]
      cases op with
      | openScope kind => simp [Operation.apply]
      | declare s added =>
          rw [Operation.apply]
          cases hd : (tableAfter history).declare? s added with
          | none => simp [declare_of_none hd, Operation.answer, hd]
          | some result =>
              obtain ⟨new, t'⟩ := result
              -- The new handle led nowhere before, so no older declaration got it.
              have hfresh := symbol?_eq_none_of_declare? hd
              rw [declare_of_some hd, symbol?_of_declare? hd]
              by_cases hid : id = new
              · subst hid
                simp [Operation.answer, hd, hfresh, eq_comm]
              · simp [Operation.answer, hd, hid]

/-- Scopes get their numbers in the order they are opened, and none is left out. So the
number of a scope says how many were opened before it. -/
theorem scopeHandles_answered (history : List Operation) :
    (answered history).filterMap (·.2.scope?) =
      (List.range (openedKinds history).length).map ScopeId.mk := by
  induction history using List.reverseRecOn with
  | nil => rfl
  | append_singleton history op ih =>
      rw [answered_append_singleton, List.filterMap_append, ih, openedKinds_append_singleton]
      cases op with
      | openScope kind =>
          simp [Operation.kind?, Operation.answer, Answer.scope?, nextScope,
            scopeCount_tableAfter, List.range_succ]
      | declare scope symbol => simp [Operation.kind?, Operation.answer, Answer.scope?]

/-- Symbols get their numbers in the order they are declared. A declaration that is
refused uses up none. So the number of the last one says how many there are. -/
theorem symbolHandles_answered (history : List Operation) :
    (answered history).filterMap (·.2.symbol?) =
      (List.range (tableAfter history).symbolCount).map SymbolId.mk := by
  induction history using List.reverseRecOn with
  | nil => rfl
  | append_singleton history op ih =>
      rw [answered_append_singleton, List.filterMap_append, ih, tableAfter_append_singleton]
      cases op with
      | openScope kind =>
          simp [Operation.apply, Operation.answer, Answer.symbol?, symbolCount, openScope]
      | declare scope symbol =>
          -- Only a declaration that is not refused hands out a number.
          cases hd : (tableAfter history).declare? scope symbol with
          | none => simp [Operation.apply, Operation.answer, Answer.symbol?, hd, declare_of_none hd]
          | some result =>
              obtain ⟨id, t'⟩ := result
              have hid := id_of_declare? hd
              simp [Operation.apply, Operation.answer, Answer.symbol?, hd, declare_of_some hd,
                symbolCount_of_declare? hd, List.range_succ, hid, nextSymbol]

/-- One name more is a different one unless it is among them. -/
theorem card_toFinset_append_singleton (names : List String) (name : String) :
    (names ++ [name]).toFinset.card =
      if name ∈ names then names.toFinset.card else names.toFinset.card + 1 := by
  have hinsert : (names ++ [name]).toFinset = insert name names.toFinset := by
    ext n
    simp
  rw [hinsert]
  split
  · rename_i hmem
    rw [Finset.insert_eq_of_mem (List.mem_toFinset.mpr hmem)]
  · rename_i hnew
    exact Finset.card_insert_of_notMem (by simpa using hnew)

/-- In a scope that is not there yet nothing was declared. So a scope that is opened
later starts with no names. -/
theorem namesIn_eq_nil_of_le (h : Legal history)
    (hscope : (openedKinds history).length ≤ scope.index) : namesIn scope history = [] := by
  refine List.eq_nil_iff_forall_not_mem.mpr fun name hname => ?_
  have hbound := (isSome_lookup_tableAfter h).mpr hname
  rw [lookup_eq_none_of_le (by rwa [scopeCount_tableAfter])] at hbound
  cases hbound

/-- A declaration gives the scope it is made in a binding more, if the name is a new one
there, and leaves every other scope as it is. The size is counted by the different
names, so that a refused name does not count. -/
theorem exists_scope?_declare {t : SymbolTable} {s : ScopeId} {symbol : Symbol} {sc : Scope}
    {names : List String} (hsc : t.scope? scope = some sc)
    (hsize : sc.size = names.toFinset.card)
    (hnames : s = scope → (t.declare? s symbol = none ↔ symbol.name ∈ names)) :
    ∃ sc', (t.declare s symbol).scope? scope = some sc' ∧ sc'.kind = sc.kind ∧
      sc'.size = (names ++ ((Operation.declare s symbol).nameIn? scope).toList).toFinset.card := by
  -- The scope of the declaration is the only one that may grow.
  by_cases hs : s = scope
  · subst hs
    have hname : (Operation.declare s symbol).nameIn? s = some symbol.name := if_pos rfl
    rw [hname, Option.toList_some, card_toFinset_append_singleton]
    cases hd : t.declare? s symbol with
    | none =>
        rw [declare_of_none hd, if_pos ((hnames rfl).mp hd)]
        exact ⟨sc, hsc, rfl, hsize⟩
    | some result =>
        have hnew : symbol.name ∉ names := fun hmem => by
          rw [(hnames rfl).mpr hmem] at hd
          cases hd
        rw [declare_of_some hd, scope?_of_declare? hd, if_pos rfl, hsc, if_neg hnew]
        exact ⟨_, rfl, rfl, by simpa [Scope.size, Scope.bind] using hsize⟩
  · have hname : (Operation.declare s symbol).nameIn? scope = none := if_neg hs
    rw [hname, Option.toList_none, List.append_nil]
    refine ⟨sc, ?_, rfl, hsize⟩
    cases hd : t.declare? s symbol with
    | none => rwa [declare_of_none hd]
    | some result => rwa [declare_of_some hd, scope?_of_declare? hd, if_neg (Ne.symm hs)]

/-- A scope that was opened has its kind, and binds each of its names once. The
induction is on the history from its end. The step at a declaration is
`exists_scope?_declare`, and where a scope is opened it is either that scope or an
earlier one. -/
theorem exists_scope?_tableAfter (h : Legal history)
    (hscope : scope.index < (openedKinds history).length) :
    ∃ s, (tableAfter history).scope? scope = some s ∧
      (openedKinds history)[scope.index]? = some s.kind ∧
      s.size = (namesIn scope history).toFinset.card := by
  induction history using List.reverseRecOn with
  | nil => cases hscope
  | append_singleton history op ih =>
      obtain ⟨hlegal, hfits⟩ := legal_append_singleton.mp h
      rw [openedKinds_append_singleton] at hscope ⊢
      rw [tableAfter_append_singleton, namesIn_append_singleton]
      cases op with
      | openScope kind =>
          rw [Operation.apply, scope?_openScope]
          have hnext : scope = (tableAfter history).nextScope ↔
              scope.index = (openedKinds history).length := by
            rw [← scopeCount_tableAfter, ← ScopeId.index_inj]
            rfl
          -- The scope is the one just opened, which is empty, or one from before.
          by_cases hnew : scope.index = (openedKinds history).length
          · rw [if_pos (hnext.mpr hnew), hnew, namesIn_eq_nil_of_le hlegal hnew.ge]
            exact ⟨_, rfl, by simp [Operation.kind?, Scope.empty], rfl⟩
          · have hlength : scope.index < (openedKinds history).length + 1 := by
              simpa [Operation.kind?] using hscope
            have hold : scope.index < (openedKinds history).length := by omega
            obtain ⟨s, hs, hkind, hsize⟩ := ih hlegal hold
            rw [if_neg fun heq => hnew (hnext.mp heq), List.getElem?_append_left hold]
            exact ⟨s, hs, hkind, by simpa [Operation.nameIn?] using hsize⟩
      | declare s symbol =>
          have hkinds : openedKinds history ++ (Operation.declare s symbol).kind?.toList =
              openedKinds history := List.append_nil _
          rw [hkinds] at hscope ⊢
          obtain ⟨sc, hsc, hkind, hsize⟩ := ih hlegal hscope
          -- By the names so far the declaration is refused or not.
          have hrefused : s = scope →
              ((tableAfter history).declare? s symbol = none ↔
                symbol.name ∈ namesIn scope history) := by
            rintro rfl
            exact declare?_tableAfter_eq_none_iff hlegal hfits
          obtain ⟨sc', hsc', hkind', hsize'⟩ := exists_scope?_declare hsc hsize hrefused
          exact ⟨sc', hsc', by rw [hkind', hkind], hsize'⟩

/-- A table that operations have made out of nothing remembers all of them, provided
that no symbol was declared in a scope that was not there. The history may be of any
length, and the table need not come from a program.

Each field is one of the lemmas above, which are all inductions on the history from its
end. Those on handles hold of any history, and those on names need it to be legal. -/
theorem remembers_tableAfter (h : Legal history) : (tableAfter history).Remembers history where
  scopeHandles := scopeHandles_answered history
  symbolHandles := symbolHandles_answered history
  refused := by
    intro before scope symbol after hsplit
    -- The operation stands in the history together with those before it.
    have hentry : (before, Operation.declare scope symbol) ∈ withEarlier history :=
      mem_withEarlier.mpr ⟨after, hsplit⟩
    have hbefore : Legal before := by
      rw [hsplit] at h
      exact h.of_append
    refine ⟨declare?_tableAfter_eq_none_iff hbefore (h _ hentry), fun hnone => ?_⟩
    rw [tableAfter_append_singleton]
    exact declare_of_none hnone
  lookup _ _ := lookup_tableAfter h
  bound _ _ := isSome_lookup_tableAfter h
  scope scope hscope := by
    obtain ⟨s, hs, hkind, hsize⟩ := exists_scope?_tableAfter h hscope
    refine ⟨s, hs, hkind, hsize, by simp [Scope.isEmpty, Scope.size], fun name => ?_⟩
    rw [SymbolTable.lookup, hs]
    rfl
  scopeCount := scopeCount_tableAfter history
  symbol _ _ := symbol?_tableAfter
  symbolCount := (built_tableAfter history).bindingCount_eq.symm

/-- A routine whose variable bears its name, and that is declared again as something else. The
last scope stays empty. -/
def echo : List Operation :=
  [.openScope .unit, .openScope .routine,
    .declare ⟨1⟩ (.var ⟨"echo", .unspecified, .integer 8, .onLine 1 1 9⟩),
    .declare ⟨0⟩ (.routine ⟨"echo", .subroutine, ⟨1⟩, [], [], none, .onLine 1 1 9⟩),
    .openScope .routine,
    .declare ⟨1⟩ (.var ⟨"echo", .input, .real 4, .onLine 2 3 14⟩)]

/-- The last declaration is refused, and the table remembers the others. -/
theorem remembers_echo :
    Legal echo ∧ (tableAfter echo).Remembers echo ∧
      (answered echo).map Prod.snd = [.scope ⟨0⟩, .scope ⟨1⟩, .symbol (some ⟨0⟩),
        .symbol (some ⟨1⟩), .scope ⟨2⟩, .symbol none] ∧
      (tableAfter echo).lookup ⟨1⟩ "echo" = some ⟨0⟩ :=
  ⟨by decide, remembers_tableAfter (by decide), by decide, by decide⟩

end FortranFront.SymbolTable
