/-!
# `FortranFront.Keyword`: words whose case does not matter

Type names, attribute names and intent specifiers may be written in any mix of
upper and lower case. Only the ASCII letters have two cases here, so no other
character ever stands for a letter of a keyword.
-/

set_option autoImplicit false

namespace FortranFront

/-- The spelling of a word with its ASCII capitals lowered and all else kept.
`Char.toLower` changes no other character. -/
def foldCase (word : String) : List Char := word.toList.map Char.toLower

/-- The word is the keyword, up to the case of its ASCII letters. The keyword itself is
given in lower case, so only the word is folded. -/
def Spells (word keyword : String) : Prop := foldCase word = keyword.toList

instance (word keyword : String) : Decidable (Spells word keyword) :=
  inferInstanceAs (Decidable (foldCase word = keyword.toList))

/-- Whether a word spells a keyword depends on its folded spelling only. This is how one
spelling can be put in place of another throughout an analysis. -/
theorem spells_congr {a b : String} (h : foldCase a = foldCase b) (keyword : String) :
    Spells a keyword ↔ Spells b keyword := by
  simp [Spells, h]

end FortranFront
