import FortranFront.Text.Line

/-!
# `FortranFront.Proofs.CharCounts`: characters of a line by their bytes

A range starts at a byte of its line, and the column that a report names for it is a
number of characters. The first is turned into the second by counting the characters
that end before it, with `charsBefore`.

* `le_charsBefore_iff`: so many characters lie before a byte if they have no more bytes.
* `charsBefore_eq_iff`: as many characters as bytes lie before a byte exactly if all of
  them have one byte.
* `charsBefore_append`: what follows a line does not count.
-/

set_option autoImplicit false

namespace FortranFront

namespace Text

/-! ### Characters and bytes -/

/-- A text has no more characters than bytes, since no character is encoded in
nothing. -/
theorem length_le_byteSize (text : List Char) : text.length ≤ byteSize text := by
  induction text with
  | nil => exact Nat.le_refl 0
  | cons c rest ih =>
      have hc : 0 < c.utf8Size := c.utf8Size_pos
      rw [List.length_cons, byteSize]
      omega

/-- A text has as many characters as bytes exactly if each of them has one byte. A
longer one cannot be made up for by another. -/
theorem byteSize_eq_length_iff {text : List Char} :
    byteSize text = text.length ↔ ∀ c ∈ text, c.utf8Size = 1 := by
  induction text with
  | nil => simp [byteSize]
  | cons c rest ih =>
      have hc : 0 < c.utf8Size := c.utf8Size_pos
      have hrest := length_le_byteSize rest
      rw [List.forall_mem_cons, ← ih, List.length_cons, byteSize]
      omega

/-- No character starts before its text. -/
theorem le_start_of_mem_cellsFrom {start column : Nat} {line : List Char} {c : Cell}
    (h : c ∈ cellsFrom start column line) : start ≤ c.start := by
  induction line generalizing start column with
  | nil => cases h
  | cons first rest ih =>
      rw [cellsFrom, List.mem_cons] at h
      obtain rfl | h := h
      · exact Nat.le_refl _
      · exact Nat.le_of_add_right_le (ih h)

/-- So many characters of a text end within its first bytes exactly if they have no more
bytes. It does not matter where the text starts. The induction is on the text for every
count, since a character takes one of the count and its bytes of the rest. -/
theorem le_length_filter_cellsFrom_iff (start column n k : Nat) (line : List Char) :
    k ≤ ((cellsFrom start column line).filter fun c => c.stop ≤ start + n).length ↔
      k ≤ line.length ∧ byteSize (line.take k) ≤ n := by
  induction line generalizing start column n k with
  | nil => simp [cellsFrom, byteSize]
  | cons c rest ih =>
      cases k with
      | zero => simp [byteSize]
      | succ k =>
          rw [cellsFrom, List.filter_cons, List.length_cons, List.take_succ_cons, byteSize]
          by_cases hc : c.utf8Size ≤ n
          · -- The character counts, and the rest of the text has what it leaves of the bytes.
            have hstop : start + n = start + c.utf8Size + (n - c.utf8Size) := by omega
            rw [if_pos (by simpa [Cell.stop] using hc), List.length_cons, hstop,
              Nat.add_le_add_iff_right, ih]
            omega
          · -- It does not, and no later one ends before it does.
            have hlater : ∀ d ∈ cellsFrom (start + c.utf8Size) (column + widthAt column c) rest,
                ¬ d.stop ≤ start + n := by
              intro d hd
              have hstart := le_start_of_mem_cellsFrom hd
              simp only [Cell.stop]
              omega
            rw [if_neg (by simpa [Cell.stop] using hc),
              List.filter_eq_nil_iff.mpr (by simpa using hlater), List.length_nil]
            omega

/-- So many characters of a line lie before a byte exactly if they have no more bytes.
All lemmas below use this and not the definition of `charsBefore`, which counts along
the line and says nothing of a prefix. -/
theorem le_charsBefore_iff {n k : Nat} {line : List Char} :
    k ≤ charsBefore n line ↔ k ≤ line.length ∧ byteSize (line.take k) ≤ n := by
  have h := le_length_filter_cellsFrom_iff 0 0 n k line
  rwa [Nat.zero_add] at h

/-- No more characters than bytes lie before a byte. So a column that counts characters
is never the greater one. -/
theorem charsBefore_le (n : Nat) (line : List Char) : charsBefore n line ≤ n := by
  obtain ⟨hlength, hbytes⟩ := le_charsBefore_iff.mp (Nat.le_refl (charsBefore n line))
  have hchars := length_le_byteSize (line.take (charsBefore n line))
  rw [List.length_take_of_le hlength] at hchars
  exact Nat.le_trans hchars hbytes

/-- As many characters as bytes lie before a byte exactly if all of them have one byte.
The byte has to be one that so many characters can reach. This decides when a column
that is counted in bytes is the right one. -/
theorem charsBefore_eq_iff {n : Nat} {line : List Char} (h : n ≤ line.length) :
    charsBefore n line = n ↔ ∀ c ∈ line.take n, c.utf8Size = 1 := by
  have hle := charsBefore_le n line
  have hchars := length_le_byteSize (line.take n)
  have hiff : n ≤ charsBefore n line ↔ n ≤ line.length ∧ byteSize (line.take n) ≤ n :=
    le_charsBefore_iff
  rw [← byteSize_eq_length_iff, List.length_take_of_le h]
  rw [List.length_take_of_le h] at hchars
  omega

/-- What follows a text does not count before a byte of the text. This is how the
newline of a line drops out. By `le_charsBefore_iff` it is enough to compare the bytes
of the first characters, which are the same in both texts as long as these are
characters of the first. -/
theorem charsBefore_append {n : Nat} {line : List Char} (h : n ≤ byteSize line)
    (later : List Char) : charsBefore n (line ++ later) = charsBefore n line := by
  have hshort : ∀ {k : Nat}, k ≤ line.length → (line ++ later).take k = line.take k :=
    fun hk => List.take_append_of_le_length hk
  -- Each of the two counts satisfies the condition of the other, so neither is greater.
  obtain ⟨hlength, hbytes⟩ := le_charsBefore_iff.mp (Nat.le_refl (charsBefore n (line ++ later)))
  obtain ⟨hlength', hbytes'⟩ := le_charsBefore_iff.mp (Nat.le_refl (charsBefore n line))
  refine Nat.le_antisymm (le_charsBefore_iff.mpr ?_) (le_charsBefore_iff.mpr ?_)
  · generalize charsBefore n (line ++ later) = k at *
    by_cases hk : k ≤ line.length
    · rw [hshort hk] at hbytes
      exact ⟨hk, hbytes⟩
    · -- One more character than the text has takes more bytes than the text has.
      have hmore : 0 < byteSize (later.take (k - line.length)) := by
        have hchars := length_le_byteSize (later.take (k - line.length))
        rw [List.length_take] at hchars
        rw [List.length_append] at hlength
        omega
      rw [List.take_append, List.take_of_length_le (by omega), byteSize_append] at hbytes
      omega
  · rw [hshort hlength', List.length_append]
    exact ⟨Nat.le_add_right_of_le hlength', hbytes'⟩

/-- A newline at the end of a line is not shown. -/
theorem trimEnd_append_newline (line : List Char) : trimEnd (line ++ ['\n']) = trimEnd line := by
  rw [trimEnd, List.reverse_append]
  rfl

end Text

end FortranFront
