import LexTree.Predicate

/-!
# Predicates by clauses

A predicate can be declared as a list of clauses, each with conditions on the place under the cursor, actions on the
notes and an answer.  The first clause whose conditions hold decides.
-/

namespace LexTree

/-- A class of characters. -/
inductive CharClass where
  | word
  | alphabetic
  | oneOf (set : String)
  | noneOf (set : String)

def CharClass.contains : CharClass → Char → Bool
  | word, c => isWordChar c
  | alphabetic, c => isAlphabetic c
  | oneOf set, c => set.toList.contains c
  | noneOf set, c => !set.toList.contains c

/-- A test of the cursor and the notes. -/
inductive Condition where
  | starts (text : String)
  /-- The text goes on with the end marker. -/
  | startsEnd
  /-- The current character is the first of the end marker, or both are absent. -/
  | atEndFirst
  | currentIn (set : String)
  | previousIn (set : String)
  | peekIn (offset : Nat) (set : String)
  | pastEnd
  | noPrevious
  | evenBackslashes
  /-- The first character that is no blank, from an offset on, is in the set; `absent` if there is none. -/
  | nonBlankIn (offset : Nat) (set : String) (absent : Bool)
  | rangeIs (first last : Nat) (text : Option String)
  /-- The line is not the marked one. -/
  | lineChanged (family : Family)
  /-- The line is not that of the top frame, and indented no deeper. -/
  | dedented (family : Family)
  | hasFrame (family : Family)
  | depthAtLeast (n : Nat)
  | indentAtLeast (n : Nat)
  | lineAtLeast (n : Nat)
  | indexAtLeast (n : Nat)
  | lengthAtLeast (n : Nat)
  | startMarkerIs (text : String)
  | endMarkerIs (text : String)
  | suppressed
  | not (condition : Condition)

/-- Whether a character is there and in the set. -/
def occursIn (set : String) (c : Option Char) : Bool :=
  c.any set.toList.contains

/-- Evaluate a condition; reading a line mark that was never set is an error. -/
def Condition.holds (c : Cursor) (n : Notes) : Condition → Except ScratchError Bool
  | starts text => .ok (c.startsWith text)
  | startsEnd => .ok (c.startsWith n.endMarker)
  | atEndFirst => .ok (c.current? = n.endMarker.toList.head?)
  | currentIn set => .ok (occursIn set c.current?)
  | previousIn set => .ok (occursIn set c.previous?)
  | peekIn offset set => .ok (occursIn set (c.peek? offset))
  | pastEnd => .ok !c.inBounds
  | noPrevious => .ok c.previous?.isNone
  | evenBackslashes => .ok (c.backslashesBefore % 2 = 0)
  | nonBlankIn offset set absent =>
    match c.firstNonBlank? (c.index + offset) with
    | some ch => .ok (set.toList.contains ch)
    | none => .ok absent
  | rangeIs first last text => .ok (c.range? first last = text)
  | lineChanged f => (n.scratch.markedLine f).map (c.line ≠ ·)
  | dedented f =>
    match n.scratch.topFrame? f with
    | some frame => .ok (c.line ≠ frame.line && c.indent ≤ frame.indent)
    | none => .ok false
  | hasFrame f => .ok (n.scratch.topFrame? f).isSome
  | depthAtLeast k => .ok (k ≤ c.depth)
  | indentAtLeast k => .ok (k ≤ c.indent.toNat)
  | lineAtLeast k => .ok (k ≤ c.line.toNat)
  | indexAtLeast k => .ok (k ≤ c.index)
  | lengthAtLeast k => .ok (k ≤ c.text.size)
  | startMarkerIs text => .ok (n.startMarker = text)
  | endMarkerIs text => .ok (n.endMarker = text)
  | suppressed => .ok n.suppressed
  | not condition => (condition.holds c n).map (!·)

/-- A change of the notes. -/
inductive Action where
  | setStart (text : String)
  | setEnd (text : String)
  /-- Take the current character as start marker; none leaves it empty. -/
  | setStartCurrent
  /-- Take the current character as end marker; none leaves it empty. -/
  | setEndCurrent
  | markLine (family : Family)
  | clearLineMark (family : Family)
  /-- Push the current line and indent. -/
  | pushFrame (family : Family)
  | popFrame (family : Family)
  /-- Fail unless a line is marked. -/
  | needMark (family : Family)
  | suppress

/-- The character under the cursor as a text. -/
def Cursor.currentText (c : Cursor) : String :=
  String.ofList c.current?.toList

/-- Carry out an action. -/
def Action.perform (c : Cursor) (n : Notes) : Action → Except ScratchError Notes
  | setStart text => .ok { n with startMarker := text }
  | setEnd text => .ok { n with endMarker := text }
  | setStartCurrent => .ok { n with startMarker := c.currentText }
  | setEndCurrent => .ok { n with endMarker := c.currentText }
  | markLine f => .ok { n with scratch := n.scratch.markLine f c.line }
  | clearLineMark f => .ok { n with scratch := n.scratch.clearLineMark f }
  | pushFrame f => .ok { n with scratch := n.scratch.pushFrame f ⟨c.line, c.indent⟩ }
  | popFrame f => (n.scratch.popFrame f).map fun (_, scratch) => { n with scratch }
  | needMark f => (n.scratch.markedLine f).map fun _ => n
  | suppress => .ok n.suppress

/-- Conditions that must all hold, actions to carry out, and the answer to give. -/
structure Clause where
  conditions : List Condition
  actions : List Action
  answer : Bool

/-- Whether all conditions hold; the first that does not, or fails, ends the test. -/
def Condition.allHold (c : Cursor) (n : Notes) : List Condition → Except ScratchError Bool
  | [] => .ok true
  | condition :: rest =>
    match condition.holds c n with
    | .ok true => allHold c n rest
    | .ok false => .ok false
    | .error e => .error e

/-- Carry out actions in order; those before one that fails stay done. -/
def Action.performAll (c : Cursor) : List Action → Probe Unit
  | [], n => .ok () n
  | action :: rest, n =>
    match action.perform c n with
    | .ok n => performAll c rest n
    | .error e => .error e n

/-- The predicate declared by a list of clauses; it does not hold where no clause applies. -/
def Predicate.ofClauses : List Clause → Predicate
  | [], _, n => .ok false n
  | clause :: rest, c, n =>
    match Condition.allHold c n clause.conditions with
    | .error e => .error e n
    | .ok false => ofClauses rest c n
    | .ok true =>
      match Action.performAll c clause.actions n with
      | .ok () n => .ok clause.answer n
      | .error e n => .error e n

end LexTree
