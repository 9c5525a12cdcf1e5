import LexTree.Cursor
import LexTree.Options

/-!
# Quiet steps

How the cursor moves while a boundary is handled: inside a string or comment, and over the rest of a delimiter.  A
newline crossed this way only updates the line and the indent, so the blanks after it stay part of the construct.  A
quiet step never rests on a newline.
-/

namespace LexTree.Cursor

/-! ### Moving forward -/

/-- `d` is `c` or a place further on in the same text, with as many scopes open. -/
structure Reaches (c d : Cursor) : Prop where
  text : d.text = c.text
  index : c.index ≤ d.index
  depth : d.depth = c.depth

theorem Reaches.refl (c : Cursor) : c.Reaches c := ⟨rfl, Nat.le_refl _, rfl⟩

theorem Reaches.trans {c d e : Cursor} (h : c.Reaches d) (h' : d.Reaches e) : c.Reaches e :=
  ⟨h'.text.trans h.text, Nat.le_trans h.index h'.index, h'.depth.trans h.depth⟩

theorem lt_size_of_current {c : Cursor} {ch : Char} (h : c.current? = some ch) : c.index < c.text.size :=
  (Array.getElem?_eq_some_iff.1 h).1

/-! ### Quiet steps -/

/-- Move to the next character; one that is a newline starts a new line. -/
def advance (o : Options) (c : Cursor) : Cursor :=
  let next := { c with index := c.index + 1 }
  if next.current? = some '\n' then
    { next with line := c.line + 1, indent := o.measureIndent (next.blankRun (next.index + 1)) }
  else next

@[simp] theorem index_advance (o : Options) (c : Cursor) : (c.advance o).index = c.index + 1 := by
  simp only [advance]
  split <;> rfl

@[simp] theorem text_advance (o : Options) (c : Cursor) : (c.advance o).text = c.text := by
  simp only [advance]
  split <;> rfl

private theorem reaches_advance (o : Options) (c : Cursor) : c.Reaches (c.advance o) := by
  refine ⟨text_advance o c, ?_, ?_⟩
  · rw [index_advance]
    exact Nat.le_succ _
  · simp only [advance]
    split <;> rfl

/-- Move to the next character that is not a newline. -/
def stepQuiet (o : Options) (c : Cursor) : Cursor :=
  let next := c.advance o
  if _h : next.current? = some '\n' then next.stepQuiet o else next
termination_by c.text.size - c.index
decreasing_by
  have h : (c.advance o).index < (c.advance o).text.size := lt_size_of_current _h
  rw [text_advance, index_advance] at h
  simp only [text_advance, index_advance]
  omega

theorem reaches_stepQuiet (o : Options) (c : Cursor) : c.Reaches (c.stepQuiet o) := by
  fun_induction stepQuiet o c with
  | case1 c next h ih => exact (reaches_advance o c).trans ih
  | case2 c next h => exact reaches_advance o c

theorem index_lt_stepQuiet (o : Options) (c : Cursor) : c.index < (c.stepQuiet o).index := by
  rw [stepQuiet]
  split
  · have h := (reaches_stepQuiet o (c.advance o)).index
    rw [index_advance] at h
    exact h
  · rw [index_advance]
    exact Nat.lt_succ_self _

/-- Move by `n` quiet steps. -/
def stepsQuiet (o : Options) : Nat → Cursor → Cursor
  | 0, c => c
  | n + 1, c => stepsQuiet o n (c.stepQuiet o)

theorem reaches_stepsQuiet (o : Options) (n : Nat) (c : Cursor) : c.Reaches (stepsQuiet o n c) := by
  induction n generalizing c with
  | zero => exact .refl c
  | succ n ih => exact (reaches_stepQuiet o c).trans (ih _)

theorem index_lt_stepsQuiet (o : Options) {n : Nat} (hn : 0 < n) (c : Cursor) :
    c.index < (stepsQuiet o n c).index := by
  cases n with
  | zero => omega
  | succ n => exact Nat.lt_of_lt_of_le (index_lt_stepQuiet o c) (reaches_stepsQuiet o n _).index

end LexTree.Cursor
