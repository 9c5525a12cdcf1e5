import LexTree.Unicode.Alphabetic
import LexTree.Unicode.Numeric
import LexTree.Unicode.WhiteSpace

/-!
# Character classes

The classes of characters that scanning tells apart: blanks, which separate words inside a line, word characters,
and the wider Unicode classes they are built from.  Characters below U+0080 are decided without the tables, so the
class of a delimiter is settled by evaluation.
-/

namespace LexTree

/-- Blanks separate words without ending the line. -/
def isBlank (c : Char) : Bool :=
  c = ' ' || c = '\t' || c = '\r'

/-- Letters of every script. -/
def isAlphabetic (c : Char) : Bool :=
  if c.toNat < 0x80 then c.isAlpha else CharSet.alphabetic.contains c

/-- Digits and other numbers of every script. -/
def isNumeric (c : Char) : Bool :=
  if c.toNat < 0x80 then c.isDigit else CharSet.numeric.contains c

/-- Word characters are letters, numbers and the underscore. -/
def isWordChar (c : Char) : Bool :=
  isAlphabetic c || isNumeric c || c = '_'

/-- White space of every kind, line ends included. -/
def isWhiteSpace (c : Char) : Bool :=
  CharSet.whiteSpace.contains c

theorem isWordChar_newline : isWordChar '\n' = false := by decide

theorem isWordChar_of_isBlank {c : Char} (h : isBlank c = true) : isWordChar c = false := by
  simp only [isBlank, Bool.or_eq_true, decide_eq_true_eq] at h
  rcases h with (rfl | rfl) | rfl <;> decide

end LexTree
