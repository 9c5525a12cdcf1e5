import LexTree.Text.Char

/-!
# Cursors

A cursor is a place in a text, with the line and indent level in force there and the number of scopes open.
Predicates read the text around it and cannot move it.
-/

namespace LexTree

structure Cursor where
  text : Array Char
  /-- Characters before the cursor; may lie beyond the end of the text. -/
  index : Nat := 0
  /-- The current line, from 1. -/
  line : UInt32 := 1
  /-- Indent level of the current line. -/
  indent : UInt32 := 0
  /-- Number of open scopes. -/
  depth : Nat := 0
deriving DecidableEq

/-- Whether the characters of `text` from `i` on begin with `cs`. -/
def startsAt (text : Array Char) (i : Nat) : List Char → Bool
  | [] => true
  | c :: cs => text[i]? = some c && startsAt text (i + 1) cs

/-- Number of consecutive backslashes that end right before `i`. -/
def backslashesBelow (text : Array Char) : Nat → Nat
  | 0 => 0
  | i + 1 => if text[i]? = some '\\' then backslashesBelow text i + 1 else 0

/-- The end of the run of blanks that starts at `i`. -/
def blankRunEnd (text : Array Char) (i : Nat) : Nat :=
  if h : i < text.size then
    if isBlank text[i] then blankRunEnd text (i + 1) else i
  else i
termination_by text.size - i

namespace Cursor

def ofString (text : String) : Cursor := { text := text.toList.toArray }

def inBounds (c : Cursor) : Bool := c.index < c.text.size

def current? (c : Cursor) : Option Char := c.text[c.index]?

/-- The character `offset` places after the current one. -/
def peek? (c : Cursor) (offset : Nat) : Option Char := c.text[c.index + offset]?

/-- The character right before the current one. -/
def previous? (c : Cursor) : Option Char :=
  match c.index with
  | 0 => none
  | i + 1 => c.text[i]?

/-- Whether the text from the cursor on begins with `needle`. -/
def startsWith (c : Cursor) (needle : String) : Bool :=
  startsAt c.text c.index needle.toList

/-- The text from `first` up to `last`, unless it is empty or leaves the text. -/
def range? (c : Cursor) (first last : Nat) : Option String :=
  if first < last ∧ last ≤ c.text.size then some (String.ofList (c.text.extract first last).toList) else none

/-- Number of consecutive backslashes right before the cursor; the current character is escaped when it is odd. -/
def backslashesBefore (c : Cursor) : Nat := backslashesBelow c.text c.index

/-- The first character at or after `i` that is no blank. -/
def firstNonBlank? (c : Cursor) (i : Nat) : Option Char := c.text[blankRunEnd c.text i]?

/-- The run of blanks that starts at `i`. -/
def blankRun (c : Cursor) (i : Nat) : List Char :=
  (c.text.extract i (blankRunEnd c.text i)).toList

end Cursor

end LexTree
