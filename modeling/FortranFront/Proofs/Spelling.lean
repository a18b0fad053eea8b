import FortranFront.Proofs.Agreement
import FortranFront.Proofs.Denotations
import FortranFront.Proofs.Letters

/-!
# `FortranFront.Proofs.Spelling`: declarations in upper and lower case

Type names, attribute names and arguments of attributes may be written in any mix
of upper and lower case. `RoutineRespelled` relates two routines that differ in
nothing else. They are analysed to the same typed program. If they are rejected,
then at the same place and for the same reason, but where a diagnostic quotes the
word that is wrong, it quotes each of them as it is spelled there. `SaidAlike` says
which words these are.

* `ofName?_congr` and `ofSpecifier?_congr`: a word means the same in every spelling.
* `agree_variableFor_of_respelled`: a declaration declares the same variable.
* `case_insensitive`: the two programs agree, and the only words accepted as types
  and intents are the keywords in some spelling, letter by letter.
-/

set_option autoImplicit false

namespace FortranFront

/-! ### Words -/

section Words

variable {s s' : String}

/-- A type name means the same in every spelling, as it is only asked what the name
spells. By `sameLetters_iff_foldCase` both words are one word when they are lowered. -/
theorem ScalarType.ofName?_congr (h : SameLetters s s') :
    ScalarType.ofName? s = ScalarType.ofName? s' := by
  have hspells := spells_congr (sameLetters_iff_foldCase.mp h)
  simp only [ScalarType.ofName?, hspells]

/-- An intent specifier means the same in every spelling. -/
theorem Intent.ofSpecifier?_congr (h : SameLetters s s') :
    Intent.ofSpecifier? s = Intent.ofSpecifier? s' := by
  have hspells := spells_congr (sameLetters_iff_foldCase.mp h)
  simp only [Intent.ofSpecifier?, hspells]

/-- The type names are the keywords of the two families, in any case. No other word is
one, whatever letters it has. -/
theorem ScalarType.isSome_ofName?_iff :
    (ScalarType.ofName? s).isSome ↔ SameLetters s "integer" ∨ SameLetters s "real" := by
  rw [← spells_iff_sameLetters (by decide), ← spells_iff_sameLetters (by decide)]
  unfold ScalarType.ofName? Family.keyword
  by_cases hinteger : Spells s "integer"
  · simp [hinteger]
  · by_cases hreal : Spells s "real" <;> simp [hinteger, hreal]

/-- The intent specifiers are the words of the three intents, in any case. `inout` is a
word of its own, and there is none with a blank. The words are tried in a row, but it
does not matter here which of them is found. -/
theorem Intent.isSome_ofSpecifier?_iff :
    (Intent.ofSpecifier? s).isSome ↔
      SameLetters s "in" ∨ SameLetters s "out" ∨ SameLetters s "inout" := by
  rw [← spells_iff_sameLetters (by decide), ← spells_iff_sameLetters (by decide),
    ← spells_iff_sameLetters (by decide)]
  unfold Intent.ofSpecifier? Intent.word
  -- The words are tried one after the other, and any of them will do.
  by_cases hin : Spells s "in"
  · simp [hin]
  · by_cases hout : Spells s "out"
    · simp [hin, hout]
    · by_cases hinout : Spells s "inout" <;> simp [hin, hout, hinout]

end Words

namespace Analysis

open Parsed (Attribute Declaration)

/-! ### Respelled programs -/

/-- Attributes that differ in the case of letters only. They have equally many
arguments. -/
structure AttributeRespelled (a a' : Attribute) : Prop where
  name : SameLetters a.name a'.name
  args : List.Forall₂ SameLetters a.args a'.args
  location : a.location = a'.location

/-- Declarations that differ only in the case of letters in the type name and the
attributes. The name that is declared is spelled the same. -/
structure DeclarationRespelled (d d' : Declaration) : Prop where
  name : d.name = d'.name
  typeName : SameLetters d.typeName d'.typeName
  attributes : List.Forall₂ AttributeRespelled d.attributes d'.attributes
  location : d.location = d'.location

/-- Routines that differ only in the case of letters in their declarations. They have
equally many of them, and all else is equal. -/
structure RoutineRespelled (r r' : Parsed.Routine) : Prop where
  bare_eq : bare r = bare r'
  declarations : List.Forall₂ DeclarationRespelled r.declarations r'.declarations

/-- Two declarations that stand at the same place of two programs. A diagnostic about
either is compared with one about the other. -/
def SamePlace (t t' : Parsed.Program) (d d' : Declaration) : Prop :=
  ∃ r r', (r, r') ∈ t.routines.zip t'.routines ∧ (d, d') ∈ r.declarations.zip r'.declarations

/-- Diagnostics of two programs at one location that say the same. If they quote a type
name or the first argument of an attribute, then each quotes that of its own program,
and the two words stand at the same place and have the same letters. Any other
diagnostic is equal to its counterpart. -/
inductive SaidAlike (t t' : Parsed.Program) : Diagnostic → Diagnostic → Prop
  | typeName {d d' : Declaration} (hplace : SamePlace t t' d d')
      (hletters : SameLetters d.typeName d'.typeName) :
      SaidAlike t t' ⟨.unsupportedType d.typeName, d.location⟩
        ⟨.unsupportedType d'.typeName, d.location⟩
  | specifier {d d' : Declaration} {a a' : Attribute} {s s' : String}
      (hplace : SamePlace t t' d d') (ha : (a, a') ∈ d.attributes.zip d'.attributes)
      (hs : s ∈ a.args.head?) (hs' : s' ∈ a'.args.head?) (hletters : SameLetters s s') :
      SaidAlike t t' ⟨.invalidIntent s, a.location⟩ ⟨.invalidIntent s', a.location⟩
  | other {e : Diagnostic} (h : ¬ e.defect.QuotesSpelling) : SaidAlike t t' e e

/-- Related lists with what is known of each pair: that it is related, and where it
stands. The place is needed to say which words a diagnostic quotes. -/
theorem forall₂_places {α β : Type} {R : α → β → Prop} {xs : List α} {ys : List β}
    (h : List.Forall₂ R xs ys) : List.Forall₂ (fun x y => R x y ∧ (x, y) ∈ xs.zip ys) xs ys :=
  List.forall₂_iff_zip.mpr ⟨h.length_eq, fun hplace => ⟨List.forall₂_zip h hplace, hplace⟩⟩

section Respelled

variable {t t' : Parsed.Program}

/-- Attributes at one place name the same intent, or neither names one. Where there is
no argument, nothing is quoted. Otherwise each first argument is quoted the way it is
spelled, and the two have the same letters. -/
theorem agree_intentNamed_of_respelled {d d' : Declaration} {a a' : Attribute}
    (h : AttributeRespelled a a') (hplace : SamePlace t t' d d')
    (ha : (a, a') ∈ d.attributes.zip d'.attributes) :
    Agree (SaidAlike t t') (intentNamed a) (intentNamed a') := by
  have hargs := h.args
  unfold intentNamed
  rw [← h.location]
  cases hs : a.args with
  | nil =>
      rw [hs] at hargs
      rw [List.forall₂_nil_left_iff.mp hargs]
      exact .error (.other not_false)
  | cons s rest =>
      rw [hs] at hargs
      obtain ⟨s', rest', hletters, -, hs'⟩ := List.forall₂_cons_left_iff.mp hargs
      rw [hs']
      -- Both arguments name one intent or none, and there each is quoted as it is.
      show Agree _ ((Defect.invalidIntent s).blameNone a.location (Intent.ofSpecifier? s))
        ((Defect.invalidIntent s').blameNone a.location (Intent.ofSpecifier? s'))
      rw [← Intent.ofSpecifier?_congr hletters]
      exact .blameNone (.specifier hplace ha (by simp [hs]) (by simp [hs']) hletters) _

/-- Declarations at one place declare the same variable, or are wrong in the same way.
The attributes that give an intent stand at the same places in both, since whether they
do is a matter of letters. -/
theorem agree_variableFor_of_respelled {d d' : Declaration} (h : DeclarationRespelled d d')
    (hplace : SamePlace t t' d d') : Agree (SaidAlike t t') (variableFor d) (variableFor d') := by
  refine agree_variableFor h.name h.location ?_ (agree_intentOf ?_)
  · unfold typeNamed
    rw [← ScalarType.ofName?_congr h.typeName, ← h.location]
    exact .blameNone (.typeName hplace h.typeName) _
  · -- Whether an attribute gives an intent depends on the letters of its name.
    have hintents : ∀ a a', AttributeRespelled a a' → (IsIntent a ↔ IsIntent a') :=
      fun a a' ha => spells_congr (sameLetters_iff_foldCase.mp ha.name) "intent"
    have hfiltered : List.Forall₂
        (fun a a' => AttributeRespelled a a' ∧ (a, a') ∈ d.attributes.zip d'.attributes)
        (d.attributes.filter (IsIntent ·)) (d'.attributes.filter (IsIntent ·)) :=
      List.rel_filter (fun a a' ha => by simpa using hintents a a' ha.1)
        (forall₂_places h.attributes)
    exact hfiltered.imp fun a a' ha => agree_intentNamed_of_respelled ha.1 hplace ha.2

/-- Routines at one place are declared alike. Their declarations agree pair by pair, and
they declare the same names. This is all that `agree_analyze` asks of two programs. -/
theorem RoutineRespelled.declaredAlike {r r' : Parsed.Routine} (h : RoutineRespelled r r')
    (hplace : (r, r') ∈ t.routines.zip t'.routines) : DeclaredAlike (SaidAlike t t') r r' where
  bare_eq := h.bare_eq
  locals := by
    refine agree_localsOf h.bare_eq
      (Agree.foldlM (forall₂_places h.declarations) (fun known d d' hd => ?_) _)
    have hvariable := agree_variableFor_of_respelled hd.1 ⟨r, r', hplace, hd.2⟩
    exact agree_declareLocal hd.1.name hvariable known
  declares := by
    -- The names that are declared are spelled the same in both.
    have hnames : r.declarations.map (·.name) = r'.declarations.map (·.name) := by
      rw [← List.forall₂_eq_eq_eq, List.forall₂_map_left_iff, List.forall₂_map_right_iff]
      exact h.declarations.imp fun _ _ hd => hd.name
    intro a _
    rw [declares_iff, declares_iff, hnames]

end Respelled

/-- The case of ASCII letters does not matter in type names and attributes, and nothing
else is taken for a letter. Programs that differ in such case only are analysed to the
same program, or rejected at the same location for the same reason, quoting each
program's own word where one is quoted. The accepted type names are just `integer` and
`real` letter by letter up to case, and the accepted specifiers are `in`, `out` and
`inout`.

The first part is `agree_analyze` with `SaidAlike` for the relation between diagnostics.
The others compare the words themselves by `spells_iff_sameLetters`, so they say what is
accepted without speaking of lowering. -/
theorem case_insensitive :
    (∀ t t' : Parsed.Program, List.Forall₂ RoutineRespelled t.routines t'.routines →
      ∀ options, Agree (SaidAlike t t') (analyze options t).outcome
        (analyze options t').outcome) ∧
    (∀ s, (ScalarType.ofName? s).isSome ↔ SameLetters s "integer" ∨ SameLetters s "real") ∧
    (∀ s, (Intent.ofSpecifier? s).isSome ↔
      SameLetters s "in" ∨ SameLetters s "out" ∨ SameLetters s "inout") ∧
    ∀ s, (ScalarType.ofName? s).isSome ∨ (Intent.ofSpecifier? s).isSome →
      ∀ c ∈ s.toList, IsAsciiLetter c := by
  refine ⟨fun t t' h options => ?_, fun s => ScalarType.isSome_ofName?_iff,
    fun s => Intent.isSome_ofSpecifier?_iff, fun s h => ?_⟩
  · have halike := (forall₂_places h).imp fun r r' hr => hr.1.declaredAlike hr.2
    exact agree_analyze halike (fun _ he => .other he) options
  · rw [ScalarType.isSome_ofName?_iff, Intent.isSome_ofSpecifier?_iff] at h
    obtain (h | h) | h | h | h := h
    all_goals exact isAsciiLetter_of_sameLetters h (by decide)

/-- A function of one real number, with the words of its declaration left open. Any of
them may be put in. -/
def squaring (typeName name specifier : String) : Parsed.Routine where
  form := .function
  name := "square"
  parameters := [⟨"x", .onLine 1 17 17⟩]
  declarations := [⟨"x", typeName, [⟨name, [specifier], .onLine 2 9 18⟩], .onLine 2 3 23⟩]
  body := [.of (.name "square" (.onLine 3 3 8)) (.binary .mul (.name "x" (.onLine 3 12 12))
    (.name "x" (.onLine 3 16 16)) (.onLine 3 12 16))]
  binding := none
  location := .onLine 1 1 18

/-- The function is respelled by respelling the three words. -/
theorem respelled_squaring {typeName typeName' name name' specifier specifier' : String}
    (htype : SameLetters typeName typeName') (hname : SameLetters name name')
    (hspecifier : SameLetters specifier specifier') :
    List.Forall₂ RoutineRespelled [squaring typeName name specifier]
      [squaring typeName' name' specifier'] := by
  refine .cons ⟨rfl, .cons ⟨rfl, htype, ?_, rfl⟩ .nil⟩ .nil
  exact .cons ⟨hname, .cons hspecifier .nil, rfl⟩ .nil

/-- In capitals the function is accepted as it is in small letters. With an intent that
there is not it is rejected, and the word is quoted as it is spelled. A word of two
cases is all letters. -/
theorem case_insensitive_squaring :
    (∃ u, (analyze {} ⟨[squaring "real" "intent" "in"]⟩).outcome = .ok u ∧
      Agree (SaidAlike ⟨[squaring "real" "intent" "in"]⟩ ⟨[squaring "REAL" "INTENT" "IN"]⟩)
        (.ok u) (analyze {} ⟨[squaring "REAL" "INTENT" "IN"]⟩).outcome) ∧
    Agree (SaidAlike ⟨[squaring "real" "intent" "both"]⟩ ⟨[squaring "Real" "Intent" "Both"]⟩)
      (.error ⟨.invalidIntent "both", .onLine 2 9 18⟩ : Except Diagnostic Typed.Program)
      (.error ⟨.invalidIntent "Both", .onLine 2 9 18⟩) ∧
    ∀ c ∈ "InOut".toList, IsAsciiLetter c := by
  refine ⟨⟨_, rfl, ?_⟩, ?_, case_insensitive.2.2.2 "InOut" (.inr rfl)⟩
  · exact case_insensitive.1 ⟨[squaring "real" "intent" "in"]⟩ ⟨[squaring "REAL" "INTENT" "IN"]⟩
      (respelled_squaring (by decide) (by decide) (by decide)) {}
  · exact case_insensitive.1 ⟨[squaring "real" "intent" "both"]⟩
      ⟨[squaring "Real" "Intent" "Both"]⟩
      (respelled_squaring (by decide) (by decide) (by decide)) {}

end Analysis

end FortranFront
