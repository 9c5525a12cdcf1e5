import LexTree.Proofs.Dispatch

/-!
# Passing characters

What the cursor passes in a step, and what is taken for it: the characters of the leaves emitted, and of the gathered
word.  Where nothing is found, and at the delimiters of scopes, what is passed is copied (`passes_plain`,
`passes_delimiter`).
-/

namespace LexTree

/-! ### What stands before a cursor -/

namespace Cursor

variable {o : Options} {c d : Cursor} {ch : Char} {delimiter : String}

/-- The characters before the cursor. -/
def before (c : Cursor) : List Char := c.text.toList.take c.index

theorem before_eq_take (ht : d.text = c.text) : d.before = c.text.toList.take d.index := by
  rw [before, ht]

theorem before_of_size_le (h : c.text.size ≤ c.index) : c.before = c.text.toList :=
  List.take_of_length_le (by rw [Array.length_toList]; exact h)

theorem take_succ_eq (h : c.current? = some ch) : c.text.toList.take (c.index + 1) = c.before ++ [ch] := by
  rw [List.take_add_one, ← current?_eq, h, before]
  rfl

theorem take_add_of_isPrefix {cs : List Char} (h : cs <+: c.text.toList.drop c.index) :
    c.text.toList.take (c.index + cs.length) = c.before ++ cs := by
  rw [List.take_add, ← List.prefix_iff_eq_take.1 h, before]

theorem Shows.take_add (h : c.Shows delimiter) :
    c.text.toList.take (c.index + delimiter.length) = c.before ++ delimiter.toList := by
  rw [← String.length_toList]
  exact take_add_of_isPrefix h.here

theorem Shows.length_pos (h : c.Shows delimiter) : 0 < delimiter.length := by
  rw [← String.length_toList, List.length_pos_iff]
  exact fun hn => h.ne_empty (String.toList_eq_nil_iff.1 hn)

theorem Shows.no_newline (h : c.Shows delimiter) {k : Nat} (hi : c.index ≤ k) (hk : k < c.index + delimiter.length) :
    c.text[k]? ≠ some '\n' := by
  have hlt : k - c.index < delimiter.toList.length := by
    rw [String.length_toList]
    omega
  have hget := h.here.getElem hlt
  intro hn
  rw [← Array.getElem?_toList, show k = c.index + (k - c.index) by omega, ← List.getElem?_drop,
    List.getElem?_eq_some_iff] at hn
  obtain ⟨_, hn⟩ := hn
  rw [hn] at hget
  exact h.one_line (hget ▸ List.getElem_mem hlt)

/-- A quiet step passes the character under the cursor, and the newlines after it. -/
theorem before_stepQuiet (o : Options) (c : Cursor) :
    ∃ k, (c.stepQuiet o).before = c.text.toList.take (c.index + 1) ++ List.replicate k '\n' := by
  have hnext : ∀ c : Cursor, (c.advance o).before = c.text.toList.take (c.index + 1) := by
    intro c
    rw [before_eq_take (text_advance o c), index_advance]
  fun_induction stepQuiet o c with
  | case1 c next hn ih =>
    obtain ⟨k, hk⟩ := ih
    refine ⟨k + 1, ?_⟩
    rw [hk, take_succ_eq hn, hnext, List.append_assoc]
    rfl
  | case2 c next hn =>
    refine ⟨0, ?_⟩
    rw [hnext, List.replicate_zero, List.append_nil]

theorem stepsQuiet_succ (o : Options) (n : Nat) (c : Cursor) :
    stepsQuiet o (n + 1) c = (stepsQuiet o n c).stepQuiet o := by
  induction n generalizing c with
  | zero => rfl
  | succ n ih => exact ih (c.stepQuiet o)

private theorem index_stepsQuiet (o : Options) (n : Nat)
    (h : ∀ k, c.index < k → k ≤ c.index + n → c.text[k]? ≠ some '\n') : (stepsQuiet o n c).index = c.index + n := by
  induction n with
  | zero => rfl
  | succ n ih =>
    have hi := ih fun k hk hk' => h k hk (by omega)
    have ht := (reaches_stepsQuiet o n c).text
    have hnext : ((stepsQuiet o n c).advance o).current? ≠ some '\n' := by
      rw [current?, text_advance, index_advance, ht, hi]
      exact h _ (by omega) (by omega)
    rw [stepsQuiet_succ, stepQuiet, dif_neg hnext, index_advance, hi]
    rfl

theorem Shows.index_stepsQuiet (h : c.Shows delimiter) (o : Options) :
    (stepsQuiet o (delimiter.length - 1) c).index + 1 = c.index + delimiter.length := by
  have hpos := h.length_pos
  rw [Cursor.index_stepsQuiet o _ fun k hk hk' => h.no_newline (by omega) (by omega)]
  omega

/-- Stepping over a delimiter passes it, and the newlines after it. -/
theorem Shows.before_stepsQuiet (h : c.Shows delimiter) (o : Options) :
    ∃ k, (stepsQuiet o (max delimiter.length 1) c).before =
      c.before ++ delimiter.toList ++ List.replicate k '\n' := by
  have hpos := h.length_pos
  have ht := (reaches_stepsQuiet o (delimiter.length - 1) c).text
  rw [show max delimiter.length 1 = delimiter.length - 1 + 1 by omega, stepsQuiet_succ]
  obtain ⟨k, hk⟩ := Cursor.before_stepQuiet o (stepsQuiet o (delimiter.length - 1) c)
  rw [ht, h.index_stepsQuiet o, h.take_add] at hk
  exact ⟨k, hk⟩

end Cursor

/-! ### What is taken -/

/-- Every kind of leaf is kept. -/
structure Options.KeepsAll (o : Options) : Prop where
  strings : o.includeStrings = true
  comments : o.includeComments = true
  whitespace : o.includeWhitespace = true
  newlines : o.includeNewlines = true

/-- Whether the text ended inside a construct. -/
def Problem.isUnterminated : Problem → Bool
  | unterminated _ => true
  | unbalancedScope => false

namespace State

/-- The characters of the leaves emitted so far. -/
def leafChars (s : State) : List Char := (s.events.toList.filterMap Event.leaf?).flatMap fun l => l.text.toList

/-- The characters taken so far: those of the leaves, and the gathered word. -/
def taken (s : State) : List Char := s.leafChars ++ s.word.toList

/-- Whether a construct was cut short. -/
def cut (s : State) : Bool := s.diagnostics.any fun d => d.problem.isUnterminated

variable {L : Language} {o : Options} {s s' : State}

theorem leafChars_of_events (leaves : List Leaf) (h : s'.events.toList = s.events.toList ++ leaves.map Event.leaf) :
    s'.leafChars = s.leafChars ++ leaves.flatMap fun l => l.text.toList := by
  rw [leafChars, h, List.filterMap_append, List.flatMap_append, Event.filterMap_leaf?_leaves, leafChars]

private theorem leafChars_emit (s : State) (rule : Rule) (name text : String) :
    (s.emit rule name text).leafChars = s.leafChars ++ text.toList := by
  simp [leafChars, emit, Event.leaf?]

theorem taken_of_word (h : s.word = "") : s.taken = s.leafChars := by
  rw [taken, h]
  exact List.append_nil _

theorem leafChars_flush (s : State) (L : Language) : (s.flush L).leafChars = s.taken := by
  unfold flush
  split
  · rename_i h
    exact (taken_of_word (String.isEmpty_iff.1 h)).symm
  · exact leafChars_emit ..

theorem taken_flush (s : State) (L : Language) : (s.flush L).taken = s.taken := by
  rw [taken_of_word (word_flush s L), leafChars_flush]

theorem cut_flush (s : State) (L : Language) : (s.flush L).cut = s.cut := by
  rw [cut, diagnostics_flush, cut]

theorem taken_skipRest (s : State) (o : Options) (length : Nat) : (s.skipRest o length).taken = s.taken := by
  rw [taken, word_skipRest, leafChars, events_skipRest, taken, leafChars]

theorem cut_skipRest (s : State) (o : Options) (length : Nat) : (s.skipRest o length).cut = s.cut := by
  rw [cut, diagnostics_skipRest, cut]

/-- On the way from one state to the other the cursor passes some characters, and characters are taken for them. -/
structure Passes (s : State) (passed new : List Char) (s' : State) : Prop where
  text : s'.cursor.text = s.cursor.text
  before : s'.cursor.before = s.cursor.before ++ passed
  taken : s'.taken = s.taken ++ new
  cut : s'.cut = s.cut

theorem Passes.of_flush {n : Notes} {passed new : List Char}
    (h : Passes (flush { s with notes := n } L) passed new s') : Passes s passed new s' := by
  obtain ⟨ht, hb, htaken, hcut⟩ := h
  rw [cursor_flush] at ht hb
  rw [taken_flush] at htaken
  rw [cut_flush] at hcut
  exact ⟨ht, hb, htaken, hcut⟩

/-! ### Plain characters -/

private theorem leafChars_newline (ho : o.KeepsAll) (h : s.cursor.current? = some '\n') :
    ∃ new, s.cursor.text.toList.take ((s.newline o).cursor.index + 1) = s.cursor.before ++ new ∧
      (s.newline o).leafChars = s.leafChars ++ new := by
  have hcross : ∀ s : State, s.cursor.current? = some '\n' →
      s.cursor.text.toList.take ((s.crossNewline o).cursor.index + 1) =
          s.cursor.before ++ '\n' :: s.cursor.blankRun (s.cursor.index + 1) ∧
        (s.crossNewline o).leafChars = s.leafChars ++ '\n' :: s.cursor.blankRun (s.cursor.index + 1) := by
    intro s hn
    constructor
    · rw [index_crossNewline, ← Cursor.add_length_blankRun, List.take_add,
        ← List.prefix_iff_eq_take.1 (s.cursor.blankRun_isPrefix _), Cursor.take_succ_eq hn, List.append_assoc]
      rfl
    · rw [leafChars_of_events _ (events_crossNewline s o), crossedLeaves, ho.newlines, ho.whitespace]
      cases s.cursor.blankRun (s.cursor.index + 1) <;> simp
  fun_induction newline s o with
  | case1 s next hp ih =>
    obtain ⟨htake, hleaf⟩ := hcross s h
    obtain ⟨new, htake', hleaf'⟩ := ih hp
    refine ⟨'\n' :: s.cursor.blankRun (s.cursor.index + 1) ++ new, ?_, ?_⟩
    · rw [← List.append_assoc, ← htake, ← text_crossNewline s o]
      exact htake'
    · rw [← List.append_assoc, ← hleaf]
      exact hleaf'
  | case2 s next hp =>
    obtain ⟨htake, hleaf⟩ := hcross s h
    exact ⟨_, htake, hleaf⟩

/-- A plain character is copied, and so are the newlines and blanks crossed with it. -/
theorem passes_plain (ho : o.KeepsAll) (hs : s.Inside) : ∃ new, Passes s new new (s.plain L o).moveOn := by
  obtain ⟨c, hc⟩ : ∃ c, s.cursor.current? = some c := ⟨_, Array.getElem?_eq_getElem hs⟩
  simp only [plain, hc]
  split
  · refine ⟨[c], rfl, Cursor.take_succ_eq hc, ?_, rfl⟩
    show s.leafChars ++ (s.word.push c).toList = _
    rw [String.toList_push, ← List.append_assoc]
    rfl
  · split
    · -- the cursor comes to stand on the last character crossed
      rename_i hn
      rw [hn] at hc
      obtain ⟨new, htake, hleaf⟩ := leafChars_newline (s := s.flush L) ho (by rw [cursor_flush]; exact hc)
      obtain ⟨-, hw, hd⟩ := frame_newline (s.flush L) o
      have ht : ((s.flush L).newline o).cursor.text = s.cursor.text := by
        rw [(reaches_newline (s.flush L) o).text, cursor_flush]
      rw [cursor_flush] at htake
      refine ⟨new, ht, ?_, ?_, ?_⟩
      · rw [Cursor.before_eq_take (d := ((s.flush L).newline o).moveOn.cursor) ht]
        exact htake
      · rw [taken_of_word (show ((s.flush L).newline o).moveOn.word = "" from hw.trans (word_flush s L))]
        rw [← leafChars_flush s L]
        exact hleaf
      · show ((s.flush L).newline o).diagnostics.any _ = _
        rw [hd, diagnostics_flush]
        rfl
    · rw [ho.whitespace, Bool.not_true, Bool.and_false, if_neg (by decide)]
      refine ⟨[c], ?_, ?_, ?_, ?_⟩
      · show (s.flush L).cursor.text = _
        rw [cursor_flush]
      · show ({ (s.flush L).cursor with index := (s.flush L).cursor.index + 1 } : Cursor).before = _
        rw [cursor_flush]
        exact Cursor.take_succ_eq hc
      · have hw : (s.flush L).word = "" := word_flush s L
        show ((s.flush L).emit _ _ (String.singleton c)).leafChars ++ (s.flush L).word.toList = _
        rw [leafChars_emit, leafChars_flush, hw, String.toList_singleton]
        exact List.append_nil _
      · show (s.flush L).diagnostics.any _ = _
        rw [diagnostics_flush]
        rfl

/-! ### Delimiters of scopes -/

private theorem leafChars_delimiter (s : State) (L : Language) (text : String) :
    (s.delimiter L text).leafChars = s.leafChars ++ text.toList := by
  unfold delimiter
  split
  · rename_i h
    rw [String.isEmpty_iff.1 h]
    exact (List.append_nil _).symm
  · exact leafChars_emit ..

private theorem cut_delimiter (s : State) (L : Language) (text : String) : (s.delimiter L text).cut = s.cut := by
  unfold delimiter
  split <;> rfl

private theorem leafChars_openScope (s : State) : s.openScope.leafChars = s.leafChars := by
  simp [leafChars, openScope, Event.leaf?]

private theorem leafChars_closeScope (s : State) : s.closeScope.leafChars = s.leafChars := by
  rw [leafChars, events_closeScope, List.filterMap_append, leafChars]
  simp only [Boundary.scopeEvents]
  split <;> simp [Event.leaf?]

private theorem cut_closeScope (s : State) : s.closeScope.cut = s.cut := by
  unfold closeScope
  split
  · simp [cut, report, Problem.isUnterminated]
  · rfl

theorem before_skipRest {delimiter : String} (h : s.cursor.Shows delimiter) (hn : s.notes.suppressed = false) :
    (s.skipRest o delimiter.length).moveOn.cursor.before = s.cursor.before ++ delimiter.toList := by
  have ht : (s.skipRest o delimiter.length).moveOn.cursor.text = s.cursor.text := (reaches_skipRest ..).text
  have hi : (s.skipRest o delimiter.length).moveOn.cursor.index = s.cursor.index + delimiter.length := by
    rw [skipRest, if_neg (by simp [hn])]
    exact h.index_stepsQuiet o
  rw [Cursor.before_eq_take ht, hi, h.take_add]

/-- A scope delimiter that has been emitted is copied. -/
theorem passes_delimiter {delimiter : String} (depth : Nat) (hs : s.cursor.Shows delimiter) (hw : s.word = "")
    (hcur : s'.cursor = { s.cursor with depth }) (hword : s'.word = "") (hn : s'.notes.suppressed = false)
    (hleaf : s'.leafChars = s.leafChars ++ delimiter.toList) (hcut : s'.cut = s.cut) :
    Passes s delimiter.toList delimiter.toList (settle s.cursor (s'.skipRest o delimiter.length)) := by
  have hs' : s'.cursor.Shows delimiter := by
    rw [hcur]
    exact ⟨hs.ne_empty, hs.one_line, hs.here⟩
  have hb := before_skipRest (o := o) hs' hn
  rw [settle_of_moves _ (by rw [notes_skipRest, hn])]
  refine ⟨?_, ?_, ?_, ?_⟩
  · exact (reaches_skipRest ..).text.trans (by rw [hcur])
  · rw [hb, hcur]
    rfl
  · rw [taken_of_word hw, ← hleaf, ← taken_of_word hword]
    exact taken_skipRest ..
  · exact (cut_skipRest ..).trans hcut

theorem passes_opened (hs : s.cursor.Shows s.notes.startMarker) (hw : s.word = "") (hn : s.notes.suppressed = false)
    (h : s.boundary L o .scopeStart = .ok () s') :
    Passes s s.notes.startMarker.toList s.notes.startMarker.toList (settle s.cursor s') := by
  obtain rfl := eq_of_scopeStart h
  refine passes_delimiter (s.cursor.depth + 1) hs hw ?_ ?_ ?_ ?_ ?_
  · rw [openScope, cursor_delimiter]
  · exact (word_delimiter ..).trans hw
  · exact (congrArg Notes.suppressed (notes_delimiter ..)).trans hn
  · rw [leafChars_openScope, leafChars_delimiter]
  · exact cut_delimiter ..

theorem passes_closed (hs : s.cursor.Shows s.notes.endMarker) (hw : s.word = "") (hn : s.notes.suppressed = false)
    (h : s.boundary L o .scopeEnd = .ok () s') :
    Passes s s.notes.endMarker.toList s.notes.endMarker.toList (settle s.cursor s') := by
  obtain rfl := eq_of_scopeEnd h
  refine passes_delimiter (s.cursor.depth - 1) hs hw ?_ ?_ ?_ ?_ ?_
  · rw [cursor_delimiter, cursor_closeScope]
  · rw [word_delimiter, word_closeScope, hw]
  · rw [notes_delimiter, notes_closeScope, hn]
  · rw [leafChars_delimiter, leafChars_closeScope]
  · rw [cut_delimiter, cut_closeScope]

theorem passes_dedented (hw : s.word = "") (hn : s.notes.suppressed = true) (silent : s.notes.endMarker = "")
    (inner : s.cursor.depth ≠ 0) (h : s.boundary L o .scopeEnd = .ok () s') :
    Passes s [] [] (settle s.cursor s') := by
  obtain ⟨hsettle, hs'⟩ := settle_of_closed hn inner h
  rw [delimiter, silent, if_pos (by decide)] at hs'
  have hcur : s'.cursor = { s.cursor with depth := s.cursor.depth - 1 } := by
    rw [hs', cursor_closeScope]
  rw [hsettle]
  refine ⟨by rw [hcur], ?_, ?_, ?_⟩
  · rw [hcur, List.append_nil]
    rfl
  · rw [taken_of_word hw, taken_of_word (by rw [hs', word_closeScope, hw]), hs', leafChars_closeScope, List.append_nil]
  · rw [hs', cut_closeScope]

end State

end LexTree
