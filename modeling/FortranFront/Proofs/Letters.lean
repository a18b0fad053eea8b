import FortranFront.Analysis.Locals
import FortranFront.Proofs.Complaint

/-!
# `FortranFront.Proofs.Letters`: the same letters in another case

The analysis compares words by lowering them first. `SameLetters` compares them as
they stand, character by character, where only the letters from A to Z and from a
to z come in two cases.

* `sameLetters_iff_foldCase`: words have the same letters exactly if they are the
  same word when lowered.
* `spells_iff_sameLetters`: so a word spells a keyword if it has its letters, and
  nothing before, between or after them.
* `isAsciiLetter_of_sameLetters`: no other character ever stands for a letter.
-/

set_option autoImplicit false

namespace FortranFront

/-- A character from A to Z. Letters of other alphabets are not among these. -/
def IsCapital (c : Char) : Prop := 'A'.toNat ≤ c.toNat ∧ c.toNat ≤ 'Z'.toNat

instance (c : Char) : Decidable (IsCapital c) := inferInstanceAs (Decidable (_ ∧ _))

/-- A character from a to z. All keywords consist of these. -/
def IsSmall (c : Char) : Prop := 'a'.toNat ≤ c.toNat ∧ c.toNat ≤ 'z'.toNat

instance (c : Char) : Decidable (IsSmall c) := inferInstanceAs (Decidable (_ ∧ _))

/-- The same letter of ASCII, as a capital and as a small letter. The distance of the
two codes is the same for all 26. -/
def IsCapitalOf (capital small : Char) : Prop :=
  IsCapital capital ∧ small.toNat = capital.toNat + ('a'.toNat - 'A'.toNat)

instance (capital small : Char) : Decidable (IsCapitalOf capital small) :=
  inferInstanceAs (Decidable (_ ∧ _))

/-- Two characters are the same, or one letter of ASCII in its two cases. Any other
character is the same as itself only. -/
def SameLetter (c k : Char) : Prop := c = k ∨ IsCapitalOf c k ∨ IsCapitalOf k c

instance (c k : Char) : Decidable (SameLetter c k) := inferInstanceAs (Decidable (_ ∨ _))

/-- Two words are equally long, and the same letter by letter up to the case of ASCII.
No function is applied to either word, so this can be compared with what `foldCase`
does. -/
def SameLetters (a b : String) : Prop := List.Forall₂ SameLetter a.toList b.toList

instance (a b : String) : Decidable (SameLetters a b) :=
  inferInstanceAs (Decidable (List.Forall₂ SameLetter a.toList b.toList))

/-- A letter of ASCII, in whichever case. -/
def IsAsciiLetter (c : Char) : Prop := IsCapital c ∨ IsSmall c

/-! ### Characters -/

section Characters

variable {c k : Char}

/-- The capitals have the codes from 65 to 90. In this form `omega` can use it. -/
theorem isCapital_iff : IsCapital c ↔ 65 ≤ c.toNat ∧ c.toNat ≤ 90 := Iff.rfl

/-- A small letter comes 32 codes after its capital. -/
theorem isCapitalOf_iff : IsCapitalOf c k ↔ IsCapital c ∧ k.toNat = c.toNat + 32 := Iff.rfl

/-- Lowering moves the capitals, and no other character. No code overflows, as the last
capital is far below the end of the range. -/
theorem toNat_toLower (c : Char) :
    c.toLower.toNat = if IsCapital c then c.toNat + 32 else c.toNat := by
  have hrange : c.val ≥ 'A'.val ∧ c.val ≤ 'Z'.val ↔ IsCapital c := Iff.rfl
  unfold Char.toLower
  by_cases h : IsCapital c
  · rw [dif_pos (hrange.mpr h), if_pos h]
    show (c.val + 32).toNat = c.val.toNat + 32
    have hbound : c.val.toNat ≤ 90 := h.2
    rw [UInt32.toNat_add]
    exact Nat.mod_eq_of_lt (by show c.val.toNat + 32 < 2 ^ 32; omega)
  · rw [dif_neg fun hc => h (hrange.mp hc), if_neg h]

/-- Characters are the same letter exactly if they are the same when lowered. Both sides
are statements about codes. -/
theorem sameLetter_iff_toLower : SameLetter c k ↔ c.toLower = k.toLower := by
  have hcodes : ∀ a b : Char, a = b ↔ a.toNat = b.toNat := fun a b =>
    ⟨congrArg Char.toNat, fun h => Char.toNat_inj.mp h⟩
  unfold SameLetter
  rw [isCapitalOf_iff, isCapitalOf_iff, hcodes, hcodes, toNat_toLower, toNat_toLower]
  simp only [isCapital_iff]
  -- Whichever of the two are capitals, it comes down to their codes.
  split <;> split <;> omega

/-- What is the same as a small letter is that letter, in one of its cases. So no
character of another alphabet stands for a letter of a keyword. -/
theorem isAsciiLetter_of_sameLetter (h : SameLetter c k) (hk : IsSmall k) :
    IsAsciiLetter c := by
  obtain rfl | hcapital | hsmall := h
  · exact .inr hk
  · exact .inl hcapital.1
  · -- A small letter is no capital.
    have hlow : 97 ≤ k.toNat := hk.1
    have hhigh : k.toNat ≤ 90 := hsmall.1.2
    omega

end Characters

/-! ### Words -/

section Words

variable {a b : String}

/-- Words have the same letters exactly if they are the same word when lowered,
character by character. The analysis compares lowered words, and the specification
compares letters, so this is where the two meet. -/
theorem sameLetters_iff_foldCase : SameLetters a b ↔ foldCase a = foldCase b := by
  unfold SameLetters foldCase
  rw [← List.forall₂_eq_eq_eq, List.forall₂_map_left_iff, List.forall₂_map_right_iff]
  exact ⟨fun h => h.imp fun _ _ => sameLetter_iff_toLower.mp,
    fun h => h.imp fun _ _ => sameLetter_iff_toLower.mpr⟩

/-- A word spells a keyword that is given in small letters exactly if it has its
letters. Were the keyword not lowered, no word would spell it, since only the word is
lowered and not the keyword. -/
theorem spells_iff_sameLetters {keyword : String} (h : foldCase keyword = keyword.toList) :
    Spells a keyword ↔ SameLetters a keyword := by
  rw [sameLetters_iff_foldCase, h]
  rfl

-- A capital with a dot is none of the 26, and a blank is a character like any other.
example : ¬ SameLetters "İN" "in" ∧ ¬ SameLetters "in " "in" := by decide

/-- A word with the letters of a keyword consists of ASCII letters. The keyword is one
of small letters, which is decided for each. So letters of other alphabets that look
alike, or that lower to one of these, never count. -/
theorem isAsciiLetter_of_sameLetters {keyword : String} (h : SameLetters a keyword)
    (hsmall : keyword.toList.all (IsSmall ·)) : ∀ c ∈ a.toList, IsAsciiLetter c := by
  intro c hc
  obtain ⟨k, hk, hsame⟩ := exists_partner h hc
  exact isAsciiLetter_of_sameLetter hsame (by simpa using List.all_eq_true.mp hsmall k hk)

end Words

/-- The attributes that give an intent are those whose name has the letters of that
word. All others are passed over. -/
theorem Analysis.isIntent_iff (a : Parsed.Attribute) :
    Analysis.IsIntent a ↔ SameLetters a.name "intent" :=
  spells_iff_sameLetters (by decide)

end FortranFront
