import FortranFront.Proofs.HeaderColumns

/-!
# `FortranFront.Proofs.Underlines`: the marks under a line of printable characters

A printable character of ASCII takes one byte and one column. On a line of such
characters bytes, characters and columns of the terminal are all the same, so the
carets stand below just the columns that the location names.

* `flatMap_cellsFrom_of_printable`: the characters of such a line, one byte and one column each.
* `plain_caretPieces`: the carets below it.
* `text_underlines`: the whole report on a location within such a line, as plain text.
-/

set_option autoImplicit false

namespace FortranFront

namespace Text

/-- The printable characters of ASCII, the blank among them. Tabs are not printable in
this sense, since they take more columns than bytes. -/
def IsPrintable (c : Char) : Prop := 0x20 ≤ c.toNat ∧ c.toNat < 0x7F

instance (c : Char) : Decidable (IsPrintable c) := inferInstanceAs (Decidable (_ ∧ _))

/-! ### Printable characters -/

/-- A printable character has one byte. -/
theorem IsPrintable.utf8Size_eq {c : Char} (h : IsPrintable c) : c.utf8Size = 1 := by
  have hcode : c.val.toNat ≤ 127 := Nat.le_of_lt (Nat.lt_of_lt_of_le h.2 (by decide))
  exact Char.utf8Size_eq_one_iff.mpr (UInt32.le_iff_toNat_le.mpr hcode)

/-- A printable character is none of a lower code, so neither a tab nor a newline nor an
escape. -/
theorem IsPrintable.ne {c d : Char} (h : IsPrintable c) (hd : d.toNat < 0x20) : c ≠ d := by
  rintro rfl
  exact Nat.not_lt_of_le h.1 hd

/-- A printable character takes one column, wherever it stands. -/
theorem IsPrintable.widthAt_eq {c : Char} (h : IsPrintable c) (column : Nat) :
    widthAt column c = 1 := by
  rw [widthAt, if_neg (h.ne (by decide)), width_eq_one h.1 h.2]

/-- If what is written for a printable character depends on its byte only, then what is
written for a line of them depends on its length only. The marks below a line are
written like this. The induction is on the line for every start and column, as both move
on with each character. -/
theorem flatMap_cellsFrom_of_printable {written : Cell → List Char} (writtenAt : Nat → List Char)
    (hwritten : ∀ c i, IsPrintable c → written ⟨c, i, 1⟩ = writtenAt i) (start column : Nat)
    {line : List Char} (h : ∀ c ∈ line, IsPrintable c) :
    (cellsFrom start column line).flatMap written =
      (List.range' start line.length).flatMap writtenAt := by
  induction line generalizing start column with
  | nil => rfl
  | cons c rest ih =>
      obtain ⟨hc, hrest⟩ := List.forall_mem_cons.mp h
      rw [cellsFrom, List.flatMap_cons, hc.utf8Size_eq, hc.widthAt_eq, ih _ _ hrest, hwritten c _ hc,
        List.length_cons, List.range'_succ, List.flatMap_cons]

/-- Printable characters are written as they are. Only a tab would be replaced. -/
theorem glyphs_of_printable (start column : Nat) {line : List Char}
    (h : ∀ c ∈ line, IsPrintable c) :
    (cellsFrom start column line).flatMap Cell.glyphs = line := by
  induction line generalizing start column with
  | nil => rfl
  | cons c rest ih =>
      obtain ⟨hc, hrest⟩ := List.forall_mem_cons.mp h
      rw [cellsFrom, List.flatMap_cons, ih _ _ hrest, Cell.glyphs, if_neg (hc.ne (by decide))]
      rfl

/-- A printable character is no line end. -/
theorem IsPrintable.isLineEnd_eq {c : Char} (h : IsPrintable c) : isLineEnd c = false := by
  simp [isLineEnd, h.ne (d := '\n') (by decide), h.ne (d := '\r') (by decide),
    h.ne (d := '\x00') (by decide)]

/-- All of a line of printable characters is shown, blanks at its end included. -/
theorem trimEnd_of_printable {line : List Char} (h : ∀ c ∈ line, IsPrintable c) :
    trimEnd line = line := by
  have hkept : line.reverse.dropWhile isLineEnd = line.reverse := by
    cases hreverse : line.reverse with
    | nil => rfl
    | cons c rest =>
        have hc : c ∈ line := List.mem_reverse.mp (hreverse ▸ List.mem_cons_self)
        exact List.dropWhile_cons_of_neg (by simp [(h c hc).isLineEnd_eq])
  rw [trimEnd, hkept, List.reverse_reverse]

/-- A line of printable characters has as many bytes as characters. -/
theorem byteSize_of_printable {line : List Char} (h : ∀ c ∈ line, IsPrintable c) :
    byteSize line = line.length :=
  byteSize_eq_length_iff.mpr fun c hc => (h c hc).utf8Size_eq

end Text

namespace Report

open Text

/-! ### Carets -/

/-- What stands below the byte of a printable character. Behind the last caret nothing
is written. -/
def mark (start stop offset : Nat) : List Char :=
  if start ≤ offset ∧ offset < stop then ['^'] else if offset < stop then [' '] else []

/-- Where the same character stands below each byte, there are as many of it. -/
theorem flatMap_range'_of_eq {start count : Nat} {below : Nat → List Char} {c : Char}
    (h : ∀ i, start ≤ i → i < start + count → below i = [c]) :
    (List.range' start count).flatMap below = List.replicate count c := by
  induction count generalizing start with
  | zero => rfl
  | succ count ih =>
      rw [List.range'_succ, List.flatMap_cons, h start (Nat.le_refl _) (by omega),
        ih fun i hlow hhigh => h i (by omega) (by omega)]
      rfl

/-- Below the bytes of a line there are blanks up to the first that is marked, and
carets up to the last. The bytes are taken in three stretches, and below each of them
`mark` is the same throughout. -/
theorem flatMap_mark {start stop size : Nat} (horder : start ≤ stop) (hstop : stop ≤ size) :
    (List.range' 0 size).flatMap (mark start stop) =
      List.replicate start ' ' ++ List.replicate (stop - start) '^' := by
  have hblanks : (List.range' 0 start).flatMap (mark start stop) = List.replicate start ' ' := by
    refine flatMap_range'_of_eq ?_
    intro i hlow hhigh
    rw [mark, if_neg (by omega), if_pos (by omega)]
  have hcarets : (List.range' start (stop - start)).flatMap (mark start stop) =
      List.replicate (stop - start) '^' := by
    refine flatMap_range'_of_eq ?_
    intro i hlow hhigh
    rw [mark, if_pos (by omega)]
  have hnothing : (List.range' stop (size - stop)).flatMap (mark start stop) = [] := by
    refine List.flatMap_eq_nil_iff.mpr ?_
    intro i hi
    have hlow := (List.mem_range'_1.mp hi).1
    rw [mark, if_neg (by omega), if_neg (by omega)]
  -- The three stretches one after the other are the whole line.
  have hsplit : List.range' 0 size =
      List.range' 0 start ++ List.range' start (stop - start) ++
        List.range' stop (size - stop) := by
    have hmiddle : List.range' 0 start ++ List.range' (0 + start) (stop - start) =
        List.range' 0 (start + (stop - start)) := List.range'_append_1
    have hall : List.range' 0 stop ++ List.range' (0 + stop) (size - stop) =
        List.range' 0 (stop + (size - stop)) := List.range'_append_1
    rw [Nat.zero_add, Nat.add_sub_cancel' horder] at hmiddle
    rw [Nat.zero_add, Nat.add_sub_cancel' hstop] at hall
    rw [hmiddle, hall]
  rw [hsplit, List.flatMap_append, List.flatMap_append, hblanks, hcarets, hnothing,
    List.append_nil]

/-- The carets below a line of printable characters, from one byte up to another. Bytes
and columns of the terminal are the same here. Below each character stands its `mark`,
and the place after the line has none, as the label ends within it. -/
theorem plain_caretPieces {line : List Char} {start stop : Nat}
    (h : ∀ c ∈ line, IsPrintable c) (horder : start ≤ stop) (hstop : stop ≤ line.length) :
    plain (caretPieces line start stop) =
      List.replicate start ' ' ++ List.replicate (stop - start) '^' := by
  rw [caretPieces, plain_paint, List.flatMap_append, cells,
    flatMap_cellsFrom_of_printable (mark start stop) ?_ 0 0 h, flatMap_mark horder hstop]
  · -- No mark reaches the place after the line.
    have hafter : stop ≤ (endCell line).start := by
      rw [endCell, byteSize_of_printable h]
      exact hstop
    have huncovered : (Coverage.between start stop).covers (endCell line) = false :=
      decide_eq_false (by omega)
    simp [huncovered, Nat.not_lt_of_le hafter]
  · intro c i hc
    have hcovers : max start i < min stop (i + 1) ↔ start ≤ i ∧ i < stop := by omega
    simp [Coverage.covers, Cell.stop, hc.utf8Size_eq, hcovers, mark]

/-! ### The report -/

/-- A number takes the whole of a margin as wide as itself. -/
theorem alignRight_self (number : Nat) :
    String.ofList (alignRight (toString number).length number) = toString number := by
  rw [alignRight, String.length_toList, Nat.sub_self, List.replicate_zero, List.nil_append,
    String.ofList_toList]

/-- So many carets. -/
def carets (count : Nat) : String := String.ofList (List.replicate count '^')

/-- A line of printable characters is shown as it is, beside its number. -/
theorem text_source_of_printable {number : Nat} {line : List Char} (coverage : Coverage)
    (h : ∀ c ∈ line, IsPrintable c) :
    Row.text (toString number).length (.source number .absent (trimEnd line) coverage) =
      toString number ++ " │ " ++ String.ofList line ++ "\n" := by
  -- Without a bracket only a blank stands between the border and the line.
  have hborder : toString number ++ " │" ++ Bracket.absent.text ++ " " = toString number ++ " │ " := by
    rw [String.append_assoc, String.append_assoc]
    rfl
  rw [text_source, trimEnd_of_printable h, cells, glyphs_of_printable 0 0 h, alignRight_self, hborder]

/-- The carets below columns of a line of printable characters. There is one below each
column from the first to the last. -/
theorem text_carets_of_printable (margin : Nat) {line : List Char} {first last : Nat}
    (h : ∀ c ∈ line, IsPrintable c) (hfirst : 1 ≤ first) (horder : first ≤ last)
    (hlast : last ≤ line.length) :
    Row.text margin (.carets (trimEnd line) (first - 1) last) =
      blanks (margin + 1) ++ "│ " ++ blanks (first - 1) ++ carets (last - first + 1) ++ "\n" := by
  have hstart : first - 1 ≤ last := by omega
  have hcount : last - (first - 1) = last - first + 1 := by omega
  rw [text_carets, trimEnd_of_printable h, plain_caretPieces h hstart hlast, hcount,
    String.ofList_append]
  simp only [String.append_assoc]
  rfl

/-- The advice below a label, if there is any, with the border before it. -/
def adviceText (margin : Nat) : Option String → String
  | none => ""
  | some help =>
      blanks (margin + 1) ++ "│\n" ++ blanks (margin + 1) ++ "= help: " ++ help ++ "\n"

/-- The rows of the advice are its text. -/
theorem rowsText_advice (margin : Nat) (d : Defect) :
    rowsText margin (adviceRows d ++ [Row.blank]) = adviceText margin d.help? ++ "\n" := by
  unfold adviceRows
  cases d.help? with
  | none =>
      rw [List.nil_append, rowsText_cons, text_blank, rowsText_nil]
      rfl
  | some help =>
      rw [List.cons_append, List.singleton_append, rowsText_cons, rowsText_cons, rowsText_cons,
        text_border, if_neg Bool.false_ne_true, text_help, text_blank, rowsText_nil, adviceText]
      simp only [String.append_assoc, String.append_empty]

/-- The report on columns of a line of printable characters. It names the line and the
first of the columns, shows the line as it is, and has a caret below each of the columns
and no other. The margin is as wide as the number of the line. Other lines of the text
may have any characters.

`rowsOf_onLine` has the rows, in bytes of the line. That the line is printable turns
these into characters for the header, and into columns of the terminal for the
carets. -/
theorem text_underlines {e : Diagnostic} {name source : String} {f : SourceFile}
    {k first last : Nat} (hf : f = .ofText name source) (hlocation : e.location = .onLine k first last)
    (hk : IsLineOf source k) (hfirst : 1 ≤ first) (horder : first ≤ last)
    (hlast : last ≤ (f.lineText (k - 1)).length)
    (hprintable : ∀ c ∈ f.lineText (k - 1), IsPrintable c) :
    text e f =
      "error[" ++ e.defect.code ++ "]: " ++ e.defect.message ++ "\n" ++
      blanks ((toString k).length + 1) ++ "┌─ " ++ name ++ ":" ++ toString k ++ ":" ++
        toString first ++ "\n" ++
      blanks ((toString k).length + 1) ++ "│\n" ++
      toString k ++ " │ " ++ String.ofList (f.lineText (k - 1)) ++ "\n" ++
      blanks ((toString k).length + 1) ++ "│ " ++ blanks (first - 1) ++
        carets (last - first + 1) ++ "\n" ++
      adviceText (toString k).length e.defect.help? ++ "\n" := by
  subst hf
  obtain ⟨index, rfl, hindex⟩ := hk.exists_index name
  rw [Nat.add_sub_cancel] at hlast hprintable ⊢
  -- Both columns are bytes of the line too.
  have hbytes := byteSize_of_printable hprintable
  have hstart : first - 1 ≤ byteSize ((SourceFile.ofText name source).lineText index) := by omega
  have hstop : last ≤ byteSize ((SourceFile.ofText name source).lineText index) := by omega
  have hrows := rowsOf_onLine hlocation hindex hstart hstop
  -- The line has as many characters before the label as bytes.
  have hcolumn : charsBefore (first - 1) ((SourceFile.ofText name source).lineText index) =
      first - 1 :=
    (charsBefore_eq_iff (by omega)).mpr fun c hc =>
      (hprintable c (List.mem_of_mem_take hc)).utf8Size_eq
  rw [hcolumn, Nat.sub_add_cancel hfirst, Nat.max_eq_left horder, List.append_assoc] at hrows
  rw [text_onLine hlocation hindex hstart hstop, hrows, List.cons_append, List.cons_append,
    rowsText_header, List.cons_append, List.cons_append, List.singleton_append, rowsText_cons,
    rowsText_cons, rowsText_cons, rowsText_advice, text_border, if_neg Bool.false_ne_true,
    text_source_of_printable _ hprintable,
    text_carets_of_printable _ hprintable hfirst horder hlast]
  simp only [String.append_assoc]

/-- A complaint about the fifth to seventh character of the second line. -/
def onSecondLine : Diagnostic := ⟨.undeclaredDummy "abc", .onLine 2 5 7⟩

/-- The first line has characters of more than one byte, and the marks below the second
are right nevertheless, as columns are counted from the start of their own line. -/
theorem text_onSecondLine :
    text onSecondLine (.ofText "bar.f90" "! é😀\nf(x,abc)") =
      "error[sema::undeclared_dummy_argument]: Dummy argument 'abc' not defined\n" ++
      "  ┌─ bar.f90:2:5\n" ++
      "  │\n" ++
      "2 │ f(x,abc)\n" ++
      "  │     ^^^\n" ++
      "  │\n" ++
      "  = help: every dummy argument must be declared in the routine's specification part\n" ++
      "\n" := by
  have hprintable : ∀ c ∈ (SourceFile.ofText "bar.f90" "! é😀\nf(x,abc)").lineText 1,
      IsPrintable c := by
    have hall : ((SourceFile.ofText "bar.f90" "! é😀\nf(x,abc)").lineText 1).all
        (fun c => decide (IsPrintable c)) = true := by decide
    simpa using hall
  rw [text_underlines (e := onSecondLine) (f := .ofText "bar.f90" "! é😀\nf(x,abc)") rfl rfl
    (by decide) (by decide) (by decide) (by decide) hprintable]
  decide +kernel

end Report

end FortranFront
