import LexTree.Classify
import LexTree.Diagnostic
import LexTree.Language
import LexTree.Scan.Quiet
import LexTree.Scope.OfEvents

/-!
# The state of a scan

Where the scan stands, what the predicates noted, the events emitted, the word that is being gathered and the problems
met.  Here are the moves that do not depend on the boundaries of a language: emitting leaves, finishing a word, and
crossing a newline.
-/

namespace LexTree

structure State where
  cursor : Cursor
  notes : Notes := {}
  events : Array Event := #[]
  /-- The word characters read since the last leaf. -/
  word : String := ""
  diagnostics : Array Diagnostic := #[]

namespace State

/-- The state before the first character of a text. -/
def start (text : String) : State := { cursor := .ofString text }

/-- Emit a leaf that starts where the cursor's line and indent say. -/
def emit (s : State) (rule : Rule) (name text : String) : State :=
  { s with events := s.events.push (.leaf ⟨s.cursor.line, s.cursor.indent, rule, name, text⟩) }

/-- Emit the gathered word, if there is one. -/
def flush (s : State) (L : Language) : State :=
  if s.word.isEmpty then s
  else
    let (rule, name) := classifyWord L.keywords s.word
    { s.emit rule name s.word with word := "" }

/-- Report a problem found under the cursor. -/
def report (s : State) (problem : Problem) (line : UInt32) : State :=
  { s with diagnostics := s.diagnostics.push ⟨problem, line, s.cursor.index⟩ }

@[simp] theorem cursor_flush (s : State) (L : Language) : (s.flush L).cursor = s.cursor := by
  unfold flush
  split <;> rfl

/-! ### Newlines -/

/-- Cross the newline under the cursor onto the next line: the cursor comes to stand on the last blank at its start, or
on the newline itself if there is none. -/
def crossNewline (s : State) (o : Options) : State :=
  let s := if o.includeNewlines then s.emit .other SymbolicName.newline "\n" else s
  let run := s.cursor.blankRun (s.cursor.index + 1)
  let s := { s with cursor := { s.cursor with line := s.cursor.line + 1, indent := o.measureIndent run } }
  let s :=
    if o.includeWhitespace && !run.isEmpty then s.emit .other SymbolicName.whitespace (String.ofList run) else s
  { s with cursor := { s.cursor with index := s.cursor.index + run.length } }

theorem reaches_crossNewline (s : State) (o : Options) : s.cursor.Reaches (s.crossNewline o).cursor := by
  simp only [crossNewline]
  split <;> split <;> exact ⟨rfl, Nat.le_add_right _ _, rfl⟩

/-- Cross the newline under the cursor, and every blank line after it. -/
def newline (s : State) (o : Options) : State :=
  let next := s.crossNewline o
  if _h : next.cursor.peek? 1 = some '\n' then
    newline { next with cursor := { next.cursor with index := next.cursor.index + 1 } } o
  else next
termination_by s.cursor.text.size - s.cursor.index
decreasing_by
  have h : (s.crossNewline o).cursor.index + 1 < (s.crossNewline o).cursor.text.size :=
    (Array.getElem?_eq_some_iff.1 _h).1
  have hr := reaches_crossNewline s o
  have := hr.index
  simp only [hr.text] at h ⊢
  omega

theorem reaches_newline (s : State) (o : Options) : s.cursor.Reaches (s.newline o).cursor := by
  fun_induction newline s o with
  | case1 s next h ih =>
    have hr : s.cursor.Reaches next.cursor := reaches_crossNewline s o
    exact ⟨ih.text.trans hr.text, Nat.le_trans hr.index (Nat.le_trans (Nat.le_succ _) ih.index),
      ih.depth.trans hr.depth⟩
  | case2 s next h => exact reaches_crossNewline s o

/-! ### Plain characters -/

/-- Take the character under the cursor, where no boundary was found: it goes on a word, ends the line, or stands for
itself.  Blanks are dropped unless they are asked for. -/
def plain (s : State) (L : Language) (o : Options) : State :=
  match s.cursor.current? with
  | none => s
  | some c =>
    if L.isWordChar c then { s with word := s.word.push c }
    else
      let s := s.flush L
      if c = '\n' then s.newline o
      else if isBlank c && !o.includeWhitespace then s
      else
        let text := String.singleton c
        let (rule, name) := classifySymbol L.symbols text
        s.emit rule name text

theorem reaches_plain (s : State) (L : Language) (o : Options) : s.cursor.Reaches (s.plain L o).cursor := by
  unfold plain
  split
  · exact .refl _
  · split
    · exact .refl _
    · simp only
      split
      · simpa using reaches_newline (s.flush L) o
      · split
        · simpa using Cursor.Reaches.refl _
        · simpa [emit] using Cursor.Reaches.refl _

end State

end LexTree
