import LexTree.Scan.State
import LexTree.Scan.Verbatim

/-!
# The loops inside a step

A quiet step, the crossing of newlines and the reading of a construct are loops of their own.  Each is spelled out turn
by turn: `Loop` relates a state to the number of turns made from it and to the result.  A loop whose turns use up a
measure is bounded by it (`Loop.turns_le`), and what its turns keep holds where it stops (`Loop.invariant`).
-/

namespace LexTree

/-- A loop goes round a number of times and then stops with a result. -/
inductive Loop {α β : Type} (again : α → α → Prop) (stops : α → β → Prop) : α → Nat → β → Prop
  | stop {a : α} {b : β} (h : stops a b) : Loop again stops a 0 b
  | turn {a a' : α} {n : Nat} {b : β} (h : again a a') (rest : Loop again stops a' n b) : Loop again stops a (n + 1) b

theorem Loop.turns_le {α β : Type} {again : α → α → Prop} {stops : α → β → Prop} {m : α → Nat}
    (dec : ∀ a a', again a a' → m a' < m a) {a : α} {n : Nat} {b : β} (h : Loop again stops a n b) :
    n ≤ m a := by
  induction h with
  | stop h => exact Nat.zero_le _
  | @turn a a' n b h rest ih =>
    have := dec a a' h
    omega

theorem Loop.invariant {α β : Type} {again : α → α → Prop} {stops : α → β → Prop} {P : α → Prop}
    (keep : ∀ a a', P a → again a a' → P a') {a : α} {n : Nat} {b : β} (h : Loop again stops a n b) (ha : P a) :
    ∃ a', P a' ∧ stops a' b := by
  induction h with
  | stop h => exact ⟨_, ha, h⟩
  | @turn a a' n b h rest ih => exact ih (keep a a' ha h)

/-! ### Quiet steps -/

namespace Cursor

def ahead (c : Cursor) : Nat := c.text.size - c.index

/-- A quiet step goes round again on a newline. -/
def QuietTurn (o : Options) (c d : Cursor) : Prop := (c.advance o).current? = some '\n' ∧ d = c.advance o

def QuietStop (o : Options) (c d : Cursor) : Prop := (c.advance o).current? ≠ some '\n' ∧ d = c.advance o

private theorem ahead_lt_of_quietTurn {o : Options} {c d : Cursor} (h : QuietTurn o c d) : d.ahead < c.ahead := by
  obtain ⟨hn, rfl⟩ := h
  have := lt_size_of_current hn
  simp only [ahead, text_advance, index_advance] at this ⊢
  omega

theorem loop_stepQuiet (o : Options) (c : Cursor) :
    ∃ n, Loop (QuietTurn o) (QuietStop o) c n (c.stepQuiet o) ∧ n ≤ c.ahead := by
  suffices h : ∃ n, Loop (QuietTurn o) (QuietStop o) c n (c.stepQuiet o) by
    obtain ⟨n, hn⟩ := h
    exact ⟨n, hn, hn.turns_le (m := ahead) fun _ _ => ahead_lt_of_quietTurn⟩
  fun_induction stepQuiet o c with
  | case1 c next h ih =>
    obtain ⟨n, hn⟩ := ih
    exact ⟨n + 1, .turn ⟨h, rfl⟩ hn⟩
  | case2 c next h => exact ⟨0, .stop ⟨h, rfl⟩⟩

end Cursor

/-! ### Reading a construct -/

/-- What a construct has read so far. -/
structure Reading where
  cursor : Cursor
  line : UInt32
  text : String
  notes : Notes

namespace Reading

/-- Reading goes on with the next character while its end is not found and characters are left. -/
def Turn (o : Options) (ends : Predicate) (r r' : Reading) : Prop :=
  ∃ notes ch, ends r.cursor r.notes = .ok false notes ∧ r.cursor.current? = some ch ∧
    r' = ⟨r.cursor.stepQuiet o, r.cursor.line,
      (if r.cursor.line = r.line then r.text else r.text.push '\n').push ch, notes⟩

def Stop (ends : Predicate) (r : Reading) (result : EStateM.Result ScratchError Notes Body) : Prop :=
  match ends r.cursor r.notes with
  | .error e notes => result = .error e notes
  | .ok true notes => result = .ok ⟨r.cursor, r.line, r.text, true⟩ notes
  | .ok false notes => r.cursor.current? = none ∧ result = .ok ⟨r.cursor, r.line, r.text, false⟩ notes

private theorem ahead_lt_of_turn {o : Options} {ends : Predicate} {r r' : Reading} (h : r.Turn o ends r') :
    r'.cursor.ahead < r.cursor.ahead := by
  obtain ⟨notes, ch, -, hc, rfl⟩ := h
  have h₁ := Cursor.lt_size_of_current hc
  have h₂ := Cursor.index_lt_stepQuiet o r.cursor
  simp only [Cursor.ahead, (Cursor.reaches_stepQuiet o r.cursor).text]
  omega

theorem loop_readBody (o : Options) (ends : Predicate) (r : Reading) :
    ∃ n, Loop (Turn o ends) (Stop ends) r n (readBody o ends r.cursor r.line r.text r.notes) ∧ n ≤ r.cursor.ahead := by
  -- the reading is taken apart, so that the recursion can be followed
  suffices h : ∀ c line text notes,
      ∃ n, Loop (Turn o ends) (Stop ends) ⟨c, line, text, notes⟩ n (readBody o ends c line text notes) by
    obtain ⟨n, hn⟩ := h r.cursor r.line r.text r.notes
    exact ⟨n, hn, hn.turns_le (m := fun r => r.cursor.ahead) fun _ _ => ahead_lt_of_turn⟩
  intro c line text notes
  fun_induction readBody o ends c line text notes with
  | case1 c line text n e n₁ h => exact ⟨0, .stop (by simp [Stop, h])⟩
  | case2 c line text n n₁ h => exact ⟨0, .stop (by simp [Stop, h])⟩
  | case3 c line text n n₁ h hc => exact ⟨0, .stop (by simp [Stop, h, hc])⟩
  | case4 c line text n n₁ h ch hc text' ih =>
    obtain ⟨k, hk⟩ := ih
    exact ⟨k + 1, .turn ⟨n₁, ch, h, hc, rfl⟩ hk⟩

/-- What every turn keeps holds of the body read; the end was found there, or the text has run out. -/
theorem of_readBody {o : Options} {ends : Predicate} {P : Reading → Prop}
    (keep : ∀ r r', P r → Turn o ends r r' → P r') {r : Reading} (hr : P r) {body : Body} {notes : Notes}
    (h : readBody o ends r.cursor r.line r.text r.notes = .ok body notes) :
    ∃ n, P ⟨body.cursor, body.line, body.text, n⟩ ∧ ends body.cursor n = .ok body.terminated notes ∧
      (body.terminated = false → body.cursor.current? = none) := by
  obtain ⟨n, hloop, -⟩ := loop_readBody o ends r
  obtain ⟨r', hP, hstop⟩ := hloop.invariant keep hr
  rw [h, Stop] at hstop
  split at hstop
  · cases hstop
  · injection hstop with hbody hnotes
    subst hbody hnotes
    exact ⟨r'.notes, hP, by assumption, by simp⟩
  · obtain ⟨hc, hstop⟩ := hstop
    injection hstop with hbody hnotes
    subst hbody hnotes
    exact ⟨r'.notes, hP, by assumption, fun _ => hc⟩

end Reading

/-! ### Crossing newlines -/

namespace State

/-- Crossing newlines goes round again where the next line is blank. -/
def NewlineTurn (o : Options) (s s' : State) : Prop :=
  let next := s.crossNewline o
  next.cursor.peek? 1 = some '\n' ∧ s' = { next with cursor := { next.cursor with index := next.cursor.index + 1 } }

def NewlineStop (o : Options) (s s' : State) : Prop :=
  (s.crossNewline o).cursor.peek? 1 ≠ some '\n' ∧ s' = s.crossNewline o

private theorem ahead_lt_of_newlineTurn {o : Options} {s s' : State} (h : NewlineTurn o s s') :
    s'.cursor.ahead < s.cursor.ahead := by
  obtain ⟨hp, rfl⟩ := h
  have h₁ : (s.crossNewline o).cursor.index + 1 < (s.crossNewline o).cursor.text.size :=
    (Array.getElem?_eq_some_iff.1 hp).1
  have h₂ := reaches_crossNewline s o
  have h₃ := h₂.index
  simp only [Cursor.ahead, h₂.text] at h₁ ⊢
  omega

theorem loop_newline (o : Options) (s : State) :
    ∃ n, Loop (NewlineTurn o) (NewlineStop o) s n (s.newline o) ∧ n ≤ s.cursor.ahead := by
  suffices h : ∃ n, Loop (NewlineTurn o) (NewlineStop o) s n (s.newline o) by
    obtain ⟨n, hn⟩ := h
    exact ⟨n, hn, hn.turns_le (m := fun s => s.cursor.ahead) fun _ _ => ahead_lt_of_newlineTurn⟩
  fun_induction newline s o with
  | case1 s next h ih =>
    obtain ⟨n, hn⟩ := ih
    exact ⟨n + 1, .turn ⟨h, rfl⟩ hn⟩
  | case2 s next h => exact ⟨0, .stop ⟨h, rfl⟩⟩

end State

end LexTree
