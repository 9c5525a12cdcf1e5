import LexTree.Predicate
import LexTree.Scan.Quiet

/-!
# Reading a string or comment

The body of a string or comment is everything up to the place where the predicate of its end holds.  Newlines are
crossed by quiet steps, and each line change inside the body is written as one newline.
-/

namespace LexTree

/-- A body that has been read, with the cursor where it ends. -/
structure Body where
  cursor : Cursor
  /-- The line of the last character read. -/
  line : UInt32
  text : String
  /-- Whether the end was found before the text ran out. -/
  terminated : Bool

/-- Read on from the cursor until `ends` holds, after `text` whose last character stands on `line`.  The end is tested
before the bounds: a line comment on the last line ends once its newline has been crossed. -/
def readBody (o : Options) (ends : Predicate) (c : Cursor) (line : UInt32) (text : String) (n : Notes) :
    EStateM.Result ScratchError Notes Body :=
  match ends c n with
  | .error e n => .error e n
  | .ok true n => .ok ⟨c, line, text, true⟩ n
  | .ok false n =>
    match _h : c.current? with
    | none => .ok ⟨c, line, text, false⟩ n
    | some ch =>
      let text := if c.line = line then text else text.push '\n'
      readBody o ends (c.stepQuiet o) c.line (text.push ch) n
termination_by c.text.size - c.index
decreasing_by
  have := Cursor.lt_size_of_current _h
  have := Cursor.index_lt_stepQuiet o c
  rw [(Cursor.reaches_stepQuiet o c).text]
  omega

/-- Reading a body moves the cursor forward. -/
theorem reaches_readBody {o : Options} {ends : Predicate} {c : Cursor} {line : UInt32} {text : String}
    {n n' : Notes} {body : Body} (h : readBody o ends c line text n = .ok body n') : c.Reaches body.cursor := by
  fun_induction readBody o ends c line text n with
  | case1 => simp at h
  | case2 | case3 =>
    injection h with h _
    subst h
    exact .refl _
  | case4 c line text n n₁ h₁ ch h₂ text' ih => exact (Cursor.reaches_stepQuiet o c).trans (ih h)

end LexTree
