import LexTree.Scan.State
import LexTree.Scan.Verbatim

/-!
# One step of a scan

A step looks for a boundary under the cursor.  Without one the character is plain.  A string or comment is read to its
end in one go; a scope start or end emits its delimiter and opens or closes a scope.  Then the cursor moves on by one
character, unless a predicate asked it to stay; it moves on all the same if the step would otherwise leave it where it
was with as many scopes open as before.

The main statement is `rank_step`: every step brings the end of the scan nearer, whatever the language does.
-/

namespace LexTree

namespace State

/-! ### Boundaries -/

/-- Emit the delimiter of a scope; an empty one leaves no token. -/
def delimiter (s : State) (L : Language) (text : String) : State :=
  if text.isEmpty then s
  else
    let (rule, name) := classifyDelimiter L.keywords L.symbols text
    s.emit rule name text

/-- Open a scope under the cursor. -/
def openScope (s : State) : State :=
  { s with
    events := s.events.push (.opened s.cursor.line s.cursor.indent)
    cursor := { s.cursor with depth := s.cursor.depth + 1 } }

/-- Close the innermost scope; that there is none is reported. -/
def closeScope (s : State) : State :=
  match s.cursor.depth with
  | 0 => s.report .unbalancedScope s.cursor.line
  | depth + 1 => { s with events := s.events.push .closed, cursor := { s.cursor with depth } }

/-- Skip what is left of a delimiter of the given length, unless the cursor is to stay. -/
def skipRest (s : State) (o : Options) (length : Nat) : State :=
  if s.notes.suppressed then s else { s with cursor := s.cursor.stepsQuiet o (length - 1) }

/-- Read a string or comment up to its end, under a name.  The cursor comes to stand on the first character of the end
delimiter, or past the end of the text.  A newline as end delimiter stands for the line break it matched; where the
cursor has gone past the delimiter already, it stays. -/
def verbatim (s : State) (o : Options) (ends : Predicate) (name : String) :
    EStateM.Result ScratchError State Leaf :=
  let opening := s.notes.startMarker
  let inside := s.cursor.stepsQuiet o (max opening.length 1)
  match readBody o ends inside s.cursor.line "" s.notes with
  | .error e notes => .error e { s with notes }
  | .ok body notes =>
    let closing := notes.endMarker
    let leaf (text : String) : Leaf := ⟨s.cursor.line, s.cursor.indent, .other, name, text⟩
    let s' := { s with cursor := body.cursor, notes }
    if body.terminated then
      let lineBreak := body.cursor.line ≠ body.line && closing.toList.head? ≠ some '\n'
      let text := opening ++ body.text ++ (if lineBreak then "\n" else "") ++ closing
      let passed := !closing.isEmpty && body.cursor.current? ≠ closing.toList.head?
      .ok (leaf text) (if passed then { s' with notes := notes.suppress } else s')
    else
      let cut := closing.toList.any fun c => !isWhiteSpace c
      .ok (leaf (opening ++ body.text)) (if cut then s'.report (.unterminated name) s.cursor.line else s')

/-- Handle a string or comment: read it, keep it if it is included, and skip its end delimiter. -/
def construct (s : State) (o : Options) (ends : Predicate) (name : String) (included : Bool) :
    EStateM.Result ScratchError State Unit :=
  match s.verbatim o ends name with
  | .error e s => .error e s
  | .ok leaf s =>
    let s := if included then { s with events := s.events.push (.leaf leaf) } else s
    .ok () (s.skipRest o s.notes.endMarker.length)

/-- Handle the boundary found under the cursor. -/
def boundary (s : State) (L : Language) (o : Options) : Boundary → EStateM.Result ScratchError State Unit
  | .stringStart => s.construct o (L.predicate (.closes .string)) SymbolicName.string o.includeStrings
  | .commentStart => s.construct o (L.predicate (.closes .comment)) SymbolicName.comment o.includeComments
  | .scopeStart =>
    let marker := s.notes.startMarker
    .ok () ((s.delimiter L marker).openScope.skipRest o marker.length)
  | .scopeEnd =>
    let marker := s.notes.endMarker
    .ok () ((s.closeScope.delimiter L marker).skipRest o marker.length)

/-! ### The step -/

/-- Move the cursor by one character. -/
def moveOn (s : State) : State := { s with cursor := { s.cursor with index := s.cursor.index + 1 } }

/-- End a step that began at `before`: move on, unless the cursor is to stay and the step has made a difference. -/
def settle (before : Cursor) (after : State) : State :=
  if after.notes.suppressed then
    if after.cursor.index = before.index ∧ before.depth ≤ after.cursor.depth then after.moveOn else after
  else after.moveOn

/-- One step of the scan. -/
def step (s : State) (L : Language) (o : Options) : EStateM.Result ScratchError State Unit :=
  match L.dispatch s.cursor s.notes.fresh with
  | .error e notes => .error e { s with notes }
  | .ok none notes => .ok () (settle s.cursor (plain { s with notes } L o))
  | .ok (some b) notes =>
    match boundary (flush { s with notes } L) L o b with
    | .error e s' => .error e s'
    | .ok _ s' => .ok () (settle s.cursor s')

/-! ### Progress -/

@[simp] theorem cursor_delimiter (s : State) (L : Language) (text : String) :
    (s.delimiter L text).cursor = s.cursor := by
  unfold delimiter
  split <;> rfl

theorem reaches_skipRest (s : State) (o : Options) (length : Nat) :
    s.cursor.Reaches (s.skipRest o length).cursor := by
  unfold skipRest
  split
  · exact .refl _
  · exact Cursor.reaches_stepsQuiet ..

/-- Reading a string or comment moves the cursor past at least one character. -/
theorem reaches_verbatim {s s' : State} {o : Options} {ends : Predicate} {name : String} {leaf : Leaf}
    (h : s.verbatim o ends name = .ok leaf s') : s.cursor.Reaches s'.cursor ∧ s.cursor.index < s'.cursor.index := by
  unfold verbatim at h
  simp only at h
  split at h
  · simp at h
  · rename_i body notes hb
    have hr := reaches_readBody hb
    have hlt := Cursor.index_lt_stepsQuiet o (n := max s.notes.startMarker.length 1) (by omega) s.cursor
    have key : s.cursor.Reaches body.cursor ∧ s.cursor.index < body.cursor.index :=
      ⟨(Cursor.reaches_stepsQuiet o _ s.cursor).trans hr, Nat.lt_of_lt_of_le hlt hr.index⟩
    split at h
    all_goals
      injection h with _ h
      subst h
      split <;> exact key

theorem reaches_construct {s s' : State} {o : Options} {ends : Predicate} {name : String} {included : Bool}
    (h : s.construct o ends name included = .ok () s') :
    s.cursor.Reaches s'.cursor ∧ s.cursor.index < s'.cursor.index := by
  unfold construct at h
  split at h
  · simp at h
  · rename_i leaf s₁ hv
    obtain ⟨hr, hlt⟩ := reaches_verbatim hv
    injection h with _ h
    subst h
    split
    · have hs := reaches_skipRest { s₁ with events := s₁.events.push (.leaf leaf) } o s₁.notes.endMarker.length
      exact ⟨hr.trans hs, Nat.lt_of_lt_of_le hlt hs.index⟩
    · have hs := reaches_skipRest s₁ o s₁.notes.endMarker.length
      exact ⟨hr.trans hs, Nat.lt_of_lt_of_le hlt hs.index⟩

/-- Closing a scope moves nothing, and never opens one. -/
private theorem closeScope_cursor (s : State) :
    s.closeScope.cursor.text = s.cursor.text ∧ s.closeScope.cursor.index = s.cursor.index ∧
      s.closeScope.cursor.depth ≤ s.cursor.depth := by
  unfold closeScope
  split
  · exact ⟨rfl, rfl, Nat.le_refl _⟩
  · rename_i depth h
    exact ⟨rfl, rfl, by simp only [h]; omega⟩

/-- Handling a boundary never moves back, and opens at most one scope. -/
theorem boundary_cursor {s s' : State} {L : Language} {o : Options} {b : Boundary}
    (h : s.boundary L o b = .ok () s') :
    s'.cursor.text = s.cursor.text ∧ s.cursor.index ≤ s'.cursor.index ∧ s'.cursor.depth ≤ s.cursor.depth + 1 := by
  cases b with
  | stringStart | commentStart =>
    obtain ⟨hr, -⟩ := reaches_construct h
    exact ⟨hr.text, hr.index, Nat.le_succ_of_le (Nat.le_of_eq hr.depth)⟩
  | scopeStart =>
    simp only [boundary] at h
    injection h with _ h
    subst h
    have hs := reaches_skipRest (s.delimiter L s.notes.startMarker).openScope o s.notes.startMarker.length
    have hc : (s.delimiter L s.notes.startMarker).openScope.cursor =
        { s.cursor with depth := s.cursor.depth + 1 } := by
      simp [openScope]
    rw [hc] at hs
    exact ⟨hs.text, hs.index, Nat.le_of_eq hs.depth⟩
  | scopeEnd =>
    simp only [boundary] at h
    injection h with _ h
    subst h
    have hs := reaches_skipRest (s.closeScope.delimiter L s.notes.endMarker) o s.notes.endMarker.length
    rw [cursor_delimiter] at hs
    obtain ⟨ht, hi, hd⟩ := closeScope_cursor s
    exact ⟨hs.text.trans ht, hi ▸ hs.index, by rw [hs.depth]; omega⟩

/-- What is left of a scan: two for each character ahead, and one for each open scope. -/
def rank (s : State) : Nat := 2 * (s.cursor.text.size - s.cursor.index) + s.cursor.depth

private theorem rank_settle {s s' : State} (hs : s.cursor.index < s.cursor.text.size)
    (ht : s'.cursor.text = s.cursor.text) (hi : s.cursor.index ≤ s'.cursor.index)
    (hd : s'.cursor.depth ≤ s.cursor.depth + 1) : (settle s.cursor s').rank < s.rank := by
  unfold settle rank
  split
  · split
    · simp only [moveOn, ht]
      omega
    · rw [ht]
      omega
  · simp only [moveOn, ht]
    omega

/-- Every step inside the text brings the end of the scan nearer. -/
theorem rank_step {s s' : State} {L : Language} {o : Options} (hs : s.cursor.index < s.cursor.text.size)
    (h : s.step L o = .ok () s') : s'.rank < s.rank := by
  unfold step at h
  split at h
  · simp at h
  · rename_i notes _
    injection h with _ h
    subst h
    have hr := reaches_plain { s with notes } L o
    exact rank_settle hs hr.text hr.index (Nat.le_succ_of_le (Nat.le_of_eq hr.depth))
  · rename_i b notes _
    split at h
    · simp at h
    · rename_i s₁ hb
      injection h with _ h
      subst h
      obtain ⟨ht, hi, hd⟩ := boundary_cursor hb
      rw [cursor_flush] at ht hi hd
      exact rank_settle hs ht hi hd

end State

end LexTree
