import FortranFront.Proofs.ColourCodes
import FortranFront.Proofs.RowTexts

/-!
# `FortranFront.Proofs.Quotations`: where the escapes in a report come from

A report quotes the message of its diagnostic, the name of the file and lines of the text.
All else in it is made of letters, digits, blanks and the signs of its frame, so
an escape in its plain text stands in something it quotes. If nothing that can be quoted has
an escape, then taking the colour sequences out of the report with colours leaves the plain
one.

* `Row.escape_mem_quoted`: an escape in a row is in what the row quotes.
* `quoted_of_mem_rows`: what the rows of a report quote.
* `withoutColours_terminalText`: the report with colours is the plain one and its colour
  sequences.
-/

set_option autoImplicit false

namespace FortranFront

open Text

namespace Text

/-- What is shown of a line belongs to the line. -/
theorem mem_of_mem_trimEnd {line : List Char} {c : Char} (h : c ∈ trimEnd line) : c ∈ line := by
  rw [trimEnd, List.mem_reverse] at h
  exact List.mem_reverse.mp ((List.dropWhile_sublist _).subset h)

/-- The characters that are written for a line are its own, and blanks for its tabs. The
induction is on the line, from whatever byte and column it starts at. -/
theorem mem_glyphs_cellsFrom {start column : Nat} {line : List Char} {c : Char}
    (h : c ∈ (cellsFrom start column line).flatMap Cell.glyphs) : c ∈ line ∨ c = ' ' := by
  induction line generalizing start column with
  | nil => cases h
  | cons first rest ih =>
      rw [cellsFrom, List.flatMap_cons, List.mem_append] at h
      rcases h with h | h
      · unfold Cell.glyphs at h
        split at h
        · exact .inr (List.eq_of_mem_replicate h)
        · exact .inl (List.mem_cons.mpr (.inl (List.mem_singleton.mp h)))
      · exact (ih h).imp_left (List.mem_cons_of_mem first)

end Text

/-- Every character of a line is one of the text, as the lines are the text once they
are put together. A line that is not there has none. -/
theorem SourceFile.mem_source_of_mem_line {name source : String} {index : Nat} {c : Char}
    (h : c ∈ (ofText name source).line index) : c ∈ source.toList := by
  rw [SourceFile.line, List.getD_eq_getElem?_getD] at h
  cases hline : (ofText name source).lines[index]? with
  | none =>
      rw [hline] at h
      cases h
  | some line =>
      rw [hline] at h
      rw [← flatten_splitLines source.toList]
      exact List.mem_flatten.mpr ⟨line, List.mem_of_getElem? hline, h⟩

namespace Report

/-! ### Signs and numbers -/

/-- No digit is an escape, so no number has one. -/
theorem escape_notMem_toDigits (n : Nat) : '\x1b' ∉ Nat.toDigits 10 n := by
  intro h
  exact absurd (Nat.isDigit_of_mem_toDigits (by decide) (by decide) h) (by decide)

/-- A number with blanks before it has no escape. -/
theorem escape_notMem_alignRight (margin number : Nat) : '\x1b' ∉ alignRight margin number := by
  simp [alignRight, escape_notMem_toDigits]

/-- A sign after an empty margin is all that a margined piece writes. -/
theorem escape_notMem_margined {sign : String} (margin : Nat) (h : '\x1b' ∉ sign.toList) :
    '\x1b' ∉ plain (margined margin sign) := by
  simp [margined, Piece.plain, h]

/-- Below a line there are blanks and carets, whatever characters the line has. -/
theorem escape_notMem_caretPieces (line : List Char) (start stop : Nat) :
    '\x1b' ∉ plain (caretPieces line start stop) := by
  intro h
  rw [caretPieces, plain_paint, List.mem_flatMap] at h
  obtain ⟨c, -, hc⟩ := h
  split at hc
  · cases List.eq_of_mem_replicate hc
  · split at hc
    · cases List.eq_of_mem_replicate hc
    · cases hc

/-- An arrow is a line and its tip. -/
theorem escape_notMem_arrow (line : List Char) (stop : Nat) : '\x1b' ∉ arrow line stop := by
  intro h
  rw [arrow, List.mem_append, List.mem_flatMap, List.mem_singleton] at h
  rcases h with ⟨c, -, hc⟩ | h
  · cases List.eq_of_mem_replicate hc
  · cases h

/-! ### Rows -/

/-- The characters that a row takes over. The rows of marks only measure the line they
belong to. All other characters of a row are signs of the frame and numbers. -/
def Row.quoted : Row → List Char
  | .title code message => code.toList ++ message.toList
  | .locus file _ _ => file.toList
  | .source _ _ line _ => line
  | .note text => text.toList
  | _ => []

/-- An escape in a row is in what it quotes. There is one case for each kind of row, and
what the row adds itself is free of escapes by the lemmas on signs and numbers. A row
that quotes nothing has no escape at all. So `quoted_of_mem_rows` has to speak of quoted
characters only. -/
theorem Row.escape_mem_quoted {margin : Nat} {row : Row}
    (h : '\x1b' ∈ plain (row.pieces margin)) : '\x1b' ∈ row.quoted := by
  have hmargined : ∀ sign : String, '\x1b' ∉ sign.toList → '\x1b' ∉ plain (margined margin sign) :=
    fun _ => escape_notMem_margined margin
  cases row with
  | title code message => simpa [Row.pieces, Row.quoted, Piece.plain] using h
  | locus file line column =>
      simpa [Row.pieces, Row.quoted, Piece.plain, hmargined, escape_notMem_toDigits] using h
  | border bracketed => cases bracketed <;> simp [Row.pieces, Piece.plain, hmargined] at h
  -- Tabs are written as blanks, and all else is written as it stands in the line.
  | source number bracket line coverage =>
      have hglyphs : '\x1b' ∈ (cells line).flatMap Cell.glyphs → '\x1b' ∈ line :=
        fun hc => (mem_glyphs_cellsFrom hc).resolve_right (by decide)
      refine hglyphs ?_
      cases bracket <;>
        simpa [Row.pieces, Bracket.pieces, Piece.plain, plain_paint, escape_notMem_alignRight]
          using h
  | carets line start stop =>
      simp [Row.pieces, Piece.plain, hmargined, escape_notMem_caretPieces] at h
  | opening line start => simp [Row.pieces, Piece.plain, hmargined, escape_notMem_arrow] at h
  | closing line stop => simp [Row.pieces, Piece.plain, hmargined, escape_notMem_arrow] at h
  | elision => simp [Row.pieces, Piece.plain, hmargined] at h
  | note text => simpa [Row.pieces, Row.quoted, Piece.plain, hmargined] using h
  | blank => simp [Row.pieces, Piece.plain] at h

/-! ### Reports -/

/-- The words that a report on a defect adds to its message, which are its code and its
advice. -/
def words (d : Defect) : List Char :=
  d.code.toList ++ (d.help?.elim [] fun help => ("help: " ++ help).toList)

/-- They are the same for every defect of a kind, and have no escape. So it is enough to
look through the kinds. -/
theorem escape_notMem_words (d : Defect) : '\x1b' ∉ words d := by
  cases d <;> simp [words, Defect.code, Defect.help?]

/-- The rows of a snippet quote lines of the file. The cases are the ways in which a
bracket opens, runs and closes, and the short label. Rows of marks quote nothing, so
they drop out. -/
theorem quoted_of_mem_snippet {f : SourceFile} {l : Label} {row : Row} {c : Char}
    (hrow : row ∈ l.snippet f) (hc : c ∈ row.quoted) : ∃ index, c ∈ f.line index := by
  have hshown : ∀ {index : Nat}, c ∈ trimEnd (f.line index) → ∃ index, c ∈ f.line index :=
    fun h => ⟨_, mem_of_mem_trimEnd h⟩
  unfold Label.snippet at hrow
  -- A long label has three parts, and a short one has two rows.
  split at hrow
  · rw [List.mem_append, List.mem_append] at hrow
    rcases hrow with (hopening | hpassed) | hclosing
    · unfold openingRows at hopening
      dsimp only at hopening
      split at hopening
      · obtain rfl := List.mem_singleton.mp hopening
        exact hshown hc
      · rw [List.mem_cons, List.mem_singleton] at hopening
        rcases hopening with rfl | rfl
        · exact hshown hc
        · cases hc
    · rcases mem_passedRows f hpassed with rfl | ⟨index, rfl⟩
      · cases hc
      · exact hshown hc
    · rw [closingRows, List.mem_cons, List.mem_singleton] at hclosing
      rcases hclosing with rfl | rfl
      · exact hshown hc
      · cases hc
  · rw [shortRows, List.mem_cons, List.mem_singleton] at hrow
    rcases hrow with rfl | rfl
    · exact hshown hc
    · cases hc

/-- The rows of a label quote the name of the file besides. -/
theorem quoted_of_mem_label {f : SourceFile} {l : Label} {row : Row} {c : Char}
    (hrow : row ∈ l.rows f) (hc : c ∈ row.quoted) :
    c ∈ f.name.toList ∨ ∃ index, c ∈ f.line index := by
  rw [Label.rows, List.mem_append, List.mem_cons, List.mem_singleton] at hrow
  rcases hrow with (rfl | rfl) | hsnippet
  · exact .inl hc
  · cases hc
  · exact .inr (quoted_of_mem_snippet hsnippet hc)

/-- The advice quotes its own words. -/
theorem quoted_of_mem_adviceAfter {label? : Option Label} {d : Defect} {row : Row} {c : Char}
    (hrow : row ∈ adviceAfter label? d) (hc : c ∈ row.quoted) : c ∈ words d := by
  rcases mem_adviceAfter hrow with ⟨bracketed, rfl⟩ | ⟨help, hhelp, rfl⟩
  · cases hc
  · refine List.mem_append_right _ ?_
    rw [hhelp]
    exact hc

/-- What the rows of a report quote comes from the message of its defect and the words
that go with it, from the name of the file or from a line. `rows_eq_append` says which
rows there are. -/
theorem quoted_of_mem_rows {d : Defect} {f : SourceFile} {label? : Option Label} {row : Row}
    {c : Char} (hrow : row ∈ rows d f label?) (hc : c ∈ row.quoted) :
    c ∈ d.message.toList ∨ c ∈ words d ∨ c ∈ f.name.toList ∨ ∃ index, c ∈ f.line index := by
  rw [rows_eq_append, List.mem_append, List.mem_append, List.mem_append, List.mem_singleton,
    List.mem_singleton] at hrow
  rcases hrow with ((rfl | hlabel) | hadvice) | rfl
  · rcases List.mem_append.mp hc with hcode | hmessage
    · exact .inr (.inl (List.mem_append_left _ hcode))
    · exact .inl hmessage
  · cases label? with
    | none => cases hlabel
    | some l => exact .inr (.inr (quoted_of_mem_label hlabel hc))
  · exact .inr (.inl (quoted_of_mem_adviceAfter hadvice hc))
  · cases hc

/-- A report has no escape if its message, the name of its file and the text have none.
These are all that a report takes from outside. -/
theorem escape_notMem_pieces {e : Diagnostic} {name source : String}
    (hname : '\x1b' ∉ name.toList) (hsource : '\x1b' ∉ source.toList)
    (hmessage : '\x1b' ∉ e.defect.message.toList) :
    '\x1b' ∉ plain (pieces e (.ofText name source)) := by
  intro h
  rw [pieces_eq_flatMap_rowsOf, plain, List.flatMap_assoc, List.mem_flatMap] at h
  -- The escape stands in a row, so this row quotes it from somewhere.
  obtain ⟨row, hrow, hescape⟩ := h
  rcases quoted_of_mem_rows hrow (Row.escape_mem_quoted hescape) with h | h | h | ⟨index, h⟩
  · exact hmessage h
  · exact escape_notMem_words e.defect h
  · exact hname h
  · exact hsource (SourceFile.mem_source_of_mem_line h)

/-- Let neither the name of a file nor its text nor the message of a diagnostic have an
escape. Then the report with colours is the plain report again once its colour sequences
are taken out, whether it has no label, one within a line or one over any number of
lines. An escape in one of the three could begin a sequence of its own, which would be
lost. -/
theorem withoutColours_terminalText {e : Diagnostic} {name source : String}
    (hname : '\x1b' ∉ name.toList) (hsource : '\x1b' ∉ source.toList)
    (hmessage : '\x1b' ∉ e.defect.message.toList) :
    String.ofList (withoutColours (terminalText e (.ofText name source)).toList) =
      text e (.ofText name source) := by
  have hcoloured : terminalText e (.ofText name source) =
      String.ofList (coloured (pieces e (.ofText name source))) :=
    render_of_reliable reliable_emit? coloured e _
  rw [hcoloured, String.toList_ofList,
    withoutColours_coloured (escape_notMem_pieces hname hsource hmessage), text_eq_plain]

/-- A complaint about nine lines, most of which are left out of its report. -/
def overNineLines : Diagnostic := ⟨.unsupportedType "char", ⟨⟨1, 3⟩, ⟨9, 2⟩⟩⟩

/-- The report on them leaves lines out, and shows a tab, a wide letter and one that takes no
column. -/
theorem withoutColours_overNineLines :
    String.ofList (withoutColours
        (terminalText overNineLines
          (.ofText "bar.f90" "\tfoo\n語\n\u0300\n\n\n\n\n\nfoo")).toList) =
      text overNineLines (.ofText "bar.f90" "\tfoo\n語\n\u0300\n\n\n\n\n\nfoo") :=
  withoutColours_terminalText (by decide) (by decide) (by decide)

end Report

end FortranFront
