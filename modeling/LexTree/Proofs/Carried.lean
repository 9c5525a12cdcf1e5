import LexTree.Proofs.Coverage
import LexTree.Proofs.Dedent
import LexTree.Proofs.Portable

/-!
# Scanning a text inside a longer one

Two runs are compared: one over a text, one over a longer text that holds it.  A state of the second carries a state of
the first if it stands at the same place, remembers the same frames and has emitted the same, each moved down by the
lines before the inner text (`State.Carries`).  Every move keeps this (`Carries.step`), and so does a run, up to the end
of the inner text or of an unfinished construct (`Runs.carried`).
-/

namespace LexTree

/-! ### Moving down -/

/-- The leaf, a number of lines further down. -/
def Leaf.down (lines : UInt32) (l : Leaf) : Leaf := { l with line := l.line + lines }

def Event.down (lines : UInt32) : Event → Event
  | leaf l => .leaf (l.down lines)
  | opened line indent => .opened (line + lines) indent
  | closed => .closed

/-- The problem, a number of lines and characters further on. -/
def Diagnostic.moved (lines : UInt32) (chars : Nat) (d : Diagnostic) : Diagnostic :=
  { d with line := d.line + lines, index := d.index + chars }

namespace State

private theorem newline_of_blank {s : State} {o : Options} (h : (s.crossNewline o).cursor.peek? 1 = some '\n') :
    s.newline o = newline
      { s.crossNewline o with
        cursor := { (s.crossNewline o).cursor with index := (s.crossNewline o).cursor.index + 1 } } o := by
  rw [newline, dif_pos h]

private theorem newline_of_content {s : State} {o : Options} (h : (s.crossNewline o).cursor.peek? 1 ≠ some '\n') :
    s.newline o = s.crossNewline o := by
  rw [newline, dif_neg h]

/-- `t` stands where `s` does in the longer text, and has added to `past` and `known` what `s` has emitted. -/
structure Carries (w : Margins) (past : List Event) (known : List Diagnostic) (s t : State) : Prop where
  cursor : t.cursor = s.cursor.within w
  notes : s.notes.Alike w.lines t.notes
  word : t.word = s.word
  events : t.events.toList = past ++ s.events.toList.map (Event.down w.lines)
  diagnostics : t.diagnostics.toList = known ++ s.diagnostics.toList.map (Diagnostic.moved w.lines w.offset)

namespace Carries

variable {w : Margins} {past : List Event} {known : List Diagnostic} {L : Language} {o : Options} {s t : State}

private theorem line (h : Carries w past known s t) : t.cursor.line = s.cursor.line + w.lines := by
  rw [h.cursor]
  rfl

private theorem indent (h : Carries w past known s t) : t.cursor.indent = s.cursor.indent := by
  rw [h.cursor]
  rfl

private theorem depth (h : Carries w past known s t) : t.cursor.depth = s.cursor.depth := by
  rw [h.cursor]
  rfl

/-! ### Moves -/

private theorem withNotes (h : Carries w past known s t) {n n' : Notes} (hn : n.Alike w.lines n') :
    Carries w past known { s with notes := n } { t with notes := n' } :=
  ⟨h.cursor, hn, h.word, h.events, h.diagnostics⟩

private theorem withCursor (h : Carries w past known s t) (c : Cursor) :
    Carries w past known { s with cursor := c } { t with cursor := c.within w } :=
  ⟨rfl, h.notes, h.word, h.events, h.diagnostics⟩

private theorem push (h : Carries w past known s t) (e : Event) :
    Carries w past known { s with events := s.events.push e } { t with events := t.events.push (e.down w.lines) } := by
  refine ⟨h.cursor, h.notes, h.word, ?_, h.diagnostics⟩
  simp [h.events]

private theorem emit (h : Carries w past known s t) (rule : Rule) (name text : String) :
    Carries w past known (s.emit rule name text) (t.emit rule name text) := by
  have hleaf : (⟨t.cursor.line, t.cursor.indent, rule, name, text⟩ : Leaf) =
      Leaf.down w.lines ⟨s.cursor.line, s.cursor.indent, rule, name, text⟩ := by
    rw [h.line, h.indent]
    rfl
  unfold State.emit
  rw [hleaf]
  exact h.push (.leaf ⟨s.cursor.line, s.cursor.indent, rule, name, text⟩)

private theorem report (h : Carries w past known s t) (problem : Problem) (line : UInt32) :
    Carries w past known (s.report problem line) (t.report problem (line + w.lines)) := by
  refine ⟨h.cursor, h.notes, h.word, h.events, ?_⟩
  simp [State.report, h.diagnostics, h.cursor, Diagnostic.moved, Cursor.within]

theorem flush (h : Carries w past known s t) (L : Language) : Carries w past known (s.flush L) (t.flush L) := by
  unfold State.flush
  rw [h.word]
  split
  · exact h
  · have hemit := h.emit (classifyWord L.keywords s.word).1 (classifyWord L.keywords s.word).2 s.word
    exact ⟨hemit.cursor, hemit.notes, rfl, hemit.events, hemit.diagnostics⟩

private theorem delimiter (h : Carries w past known s t) (L : Language) (text : String) :
    Carries w past known (s.delimiter L text) (t.delimiter L text) := by
  unfold State.delimiter
  split
  · exact h
  · exact h.emit ..

private theorem openScope (h : Carries w past known s t) : Carries w past known s.openScope t.openScope := by
  have hpush := h.push (.opened s.cursor.line s.cursor.indent)
  refine ⟨?_, h.notes, h.word, ?_, h.diagnostics⟩
  · simp [State.openScope, h.cursor, Cursor.within]
  · have hevent : Event.opened t.cursor.line t.cursor.indent =
        Event.down w.lines (.opened s.cursor.line s.cursor.indent) := by
      rw [h.line, h.indent]
      rfl
    rw [State.openScope, State.openScope, hevent]
    exact hpush.events

private theorem closeScope (h : Carries w past known s t) : Carries w past known s.closeScope t.closeScope := by
  unfold State.closeScope
  rw [h.depth]
  split
  · rw [h.line]
    exact h.report ..
  · rename_i depth hd
    have hpush := h.push .closed
    refine ⟨?_, h.notes, h.word, hpush.events, h.diagnostics⟩
    simp [h.cursor, Cursor.within]

private theorem moveOn (h : Carries w past known s t) : Carries w past known s.moveOn t.moveOn := by
  refine ⟨?_, h.notes, h.word, h.events, h.diagnostics⟩
  simp only [State.moveOn, h.cursor]
  exact Cursor.within_moved w s.cursor 1

private theorem settle (h : Carries w past known s t) (before : Cursor) :
    Carries w past known (settle before s) (settle (before.within w) t) := by
  have hindex : t.cursor.index = (before.within w).index ↔ s.cursor.index = before.index := by
    rw [h.cursor]
    exact Nat.add_right_cancel_iff
  unfold State.settle
  rw [h.notes.suppressed, h.depth, show (before.within w).depth = before.depth from rfl]
  simp only [hindex]
  split
  · split
    · exact h.moveOn
    · exact h
  · exact h.moveOn

private theorem skipRest (h : Carries w past known s t) (hw : w.Fits s.cursor.text) {length : Nat}
    (hspan : w.Spans s.cursor.text (s.skipRest o length).cursor.index) :
    Carries w past known (s.skipRest o length) (t.skipRest o length) := by
  unfold State.skipRest at hspan ⊢
  rw [h.notes.suppressed]
  split
  · exact h
  · rename_i hsup
    rw [if_neg hsup] at hspan
    rw [h.cursor, Cursor.stepsQuiet_within hw hspan]
    exact h.withCursor _

/-! ### Newlines -/

private theorem crossNewline (h : Carries w past known s t) (hw : w.Fits s.cursor.text)
    (hs : w.Sees s.cursor.text s.cursor.index) :
    Carries w past known (s.crossNewline o) (t.crossNewline o) := by
  have hrun : t.cursor.blankRun (t.cursor.index + 1) = s.cursor.blankRun (s.cursor.index + 1) := by
    rw [h.cursor, ← Cursor.blankRun_within hw hs.spans_succ]
    exact congrArg _ (Nat.add_right_comm ..)
  have hnext : s.cursor.line + w.lines + 1 = s.cursor.line + 1 + w.lines := by
    rw [UInt32.add_assoc, UInt32.add_assoc, UInt32.add_comm w.lines]
  have hcursor : (t.crossNewline o).cursor = (s.crossNewline o).cursor.within w := by
    rw [cursor_crossNewline, cursor_crossNewline, hrun, h.cursor]
    simp only [Cursor.within, Nat.add_right_comm, hnext]
  have hleaves : (t.crossedLeaves o).map Event.leaf =
      ((s.crossedLeaves o).map Event.leaf).map (Event.down w.lines) := by
    simp only [crossedLeaves, hrun, h.line, h.indent, hnext]
    split <;> split <;> rfl
  rw [crossNewline_eq t, crossNewline_eq s, hcursor]
  refine ⟨rfl, h.notes, h.word, ?_, h.diagnostics⟩
  simp only [Array.toList_append, List.map_append, h.events, hleaves, List.append_assoc]

private theorem newline (hw : w.Fits s.cursor.text) (hs : w.Sees s.cursor.text s.cursor.index)
    (h : Carries w past known s t) : Carries w past known (s.newline o) (t.newline o) := by
  revert t
  fun_induction State.newline s o with
  | case1 s next hp ih =>
    intro t h
    have hnext : Carries w past known next (t.crossNewline o) := h.crossNewline hw hs
    have htext : next.cursor.text = s.cursor.text := text_crossNewline s o
    have hin : next.cursor.index + 1 < next.cursor.text.size := (Array.getElem?_eq_some_iff.1 hp).1
    have hp' : (t.crossNewline o).cursor.peek? 1 = some '\n' := by
      rw [hnext.cursor, Cursor.peek?_within (Or.inl hin), hp]
    rw [newline_of_blank hp']
    refine ih (htext ▸ hw) (Or.inl hin) ?_
    rw [hnext.cursor, Cursor.within_moved]
    exact hnext.withCursor _
  | case2 s next hp =>
    intro t h
    have hnext : Carries w past known next (t.crossNewline o) := h.crossNewline hw hs
    have htext : next.cursor.text = s.cursor.text := text_crossNewline s o
    -- the next line begins in the inner text or at its end
    have hspan : w.Spans next.cursor.text (next.cursor.index + 1) := by
      have hle := blankRunEnd_le s.cursor.text (s.cursor.index + 1)
      rw [htext, index_crossNewline]
      refine hs.imp_left fun hlt => ?_
      omega
    have hp' : (t.crossNewline o).cursor.peek? 1 ≠ some '\n' := by
      intro hn
      rw [hnext.cursor, Cursor.peek?, Cursor.within, Nat.add_right_comm] at hn
      exact hp (((htext ▸ hw : w.Fits next.cursor.text).newline_around hspan).1 hn)
    rw [newline_of_content hp']
    exact hnext

private theorem plain (h : Carries w past known s t) (hw : w.Fits s.cursor.text) (hs : s.Inside) :
    Carries w past known (s.plain L o) (t.plain L o) := by
  obtain ⟨c, hc⟩ : ∃ c, s.cursor.current? = some c := ⟨_, Array.getElem?_eq_getElem hs⟩
  have hc' : t.cursor.current? = some c := by rw [h.cursor, Cursor.current?_within (Or.inl hs), hc]
  have hflush := h.flush L
  simp only [State.plain, hc, hc']
  split
  · exact ⟨h.cursor, h.notes, by rw [h.word], h.events, h.diagnostics⟩
  · split
    · refine newline ?_ ?_ hflush
      · rw [cursor_flush]
        exact hw
      · rw [cursor_flush]
        exact Or.inl hs
    · split
      · exact hflush
      · exact hflush.emit ..

/-! ### Scopes -/

/-- The rest of a delimiter is skipped alike, within the text. -/
private theorem skipDelimiter (h : Carries w past known s t) (delimiter : String) (hw : w.Fits s.cursor.text)
    (hn : s.notes.suppressed = false) (hshow : s.cursor.Shows delimiter) (before : Cursor) :
    Carries w past known (s.skipRest o delimiter.length) (t.skipRest o delimiter.length) ∧
      w.Spans s.cursor.text (State.settle before (s.skipRest o delimiter.length)).cursor.index := by
  have hspan : w.Spans s.cursor.text (State.settle before (s.skipRest o delimiter.length)).cursor.index := by
    rw [index_settle_of_moves before hn hshow]
    exact Or.inl hshow.index_add_le
  exact ⟨h.skipRest hw (hspan.mono (index_le_settle ..)), hspan⟩

private theorem scopeStart {s' : State} (h : Carries w past known s t) (hw : w.Fits s.cursor.text)
    (hn : s.notes.suppressed = false) (hshow : s.cursor.Shows s.notes.startMarker)
    (hs : s.boundary L o .scopeStart = .ok () s') :
    ∃ t', t.boundary L o .scopeStart = .ok () t' ∧ Carries w past known s' t' ∧
      w.Spans s.cursor.text (State.settle s.cursor s').cursor.index := by
  obtain rfl := eq_of_scopeStart hs
  have hcur : (s.delimiter L s.notes.startMarker).openScope.cursor = { s.cursor with depth := s.cursor.depth + 1 } := by
    simp [State.openScope]
  obtain ⟨hskip, hspan⟩ := (h.delimiter L s.notes.startMarker).openScope.skipDelimiter (o := o)
    s.notes.startMarker (by rw [hcur]; exact hw) (by simpa [State.openScope] using hn)
    (by rw [hcur]; exact ⟨hshow.ne_empty, hshow.one_line, hshow.here⟩) s.cursor
  rw [hcur] at hspan
  refine ⟨_, rfl, ?_, hspan⟩
  rw [h.notes.startMarker]
  exact hskip

private theorem scopeEnd {s' : State} (h : Carries w past known s t) (hw : w.Fits s.cursor.text)
    (hn : s.notes.suppressed = false) (hshow : s.cursor.Shows s.notes.endMarker)
    (hs : s.boundary L o .scopeEnd = .ok () s') :
    ∃ t', t.boundary L o .scopeEnd = .ok () t' ∧ Carries w past known s' t' ∧
      w.Spans s.cursor.text (State.settle s.cursor s').cursor.index := by
  obtain rfl := eq_of_scopeEnd hs
  have hcur : (s.closeScope.delimiter L s.notes.endMarker).cursor = { s.cursor with depth := s.cursor.depth - 1 } := by
    rw [cursor_delimiter, cursor_closeScope]
  obtain ⟨hskip, hspan⟩ := (h.closeScope.delimiter L s.notes.endMarker).skipDelimiter (o := o)
    s.notes.endMarker (by rw [hcur]; exact hw) (by simpa using hn)
    (by rw [hcur]; exact ⟨hshow.ne_empty, hshow.one_line, hshow.here⟩) s.cursor
  rw [hcur] at hspan
  refine ⟨_, rfl, ?_, hspan⟩
  rw [h.notes.endMarker]
  exact hskip

end Carries

/-! ### Constructs -/

variable {w : Margins} {past : List Event} {known : List Diagnostic} {L : Language} {o : Options} {s s' t : State}
  {ends : Predicate} {name : String} {included : Bool} {body : Body} {m : Notes}

/-- A body that ends in the text: on its closing delimiter, or behind the newline that closes it. -/
structure Ended (closing : String) (body : Body) : Prop where
  terminated : body.terminated = true
  place : body.cursor.Shows closing ∨
    closing = "\n" ∧ body.cursor.index ≤ body.cursor.text.size ∧ body.cursor.current? ≠ some '\n'

/-- In a text that ends with a newline, a construct has ended or is reported as cut short. -/
private theorem Ended.of_read {f : Form} (hf : f.Opens ends s.cursor s.notes) (hcl : Closing ends s.cursor s.notes)
    (hc : s.cursor.Countable) (hr : s.cursor.Rests o) (hlast : s.cursor.text.toList.getLast? = some '\n')
    (hread : readBody o ends (s.inside o) s.cursor.line "" s.notes = .ok body s.notes)
    (hcut : (s.behindBody name included body s.notes).cut = false) : Ended s.notes.endMarker body := by
  obtain ⟨src, k, n, hS⟩ := seeks_body hf hc hr hread
  have htext : body.cursor.text = s.cursor.text := hS.text_eq
  cases hcl with
  | delimiter test asked shown visible =>
    obtain ⟨body', hread', htest, -⟩ := readBody_of_test asked (s.inside o) s.cursor.line ""
    rw [hread] at hread'
    cases hread'
    cases hterm : body.terminated with
    | true => exact ⟨hterm, Or.inl (shown _ (htest.trans hterm))⟩
    | false => simp [behindBody, missesEnd, hterm, visible, cut, Problem.isUnterminated] at hcut
  | lineEnd marker asked =>
    obtain ⟨body', hread', htest, hnone⟩ := readBody_of_test asked (s.inside o) s.cursor.line ""
    rw [hread] at hread'
    cases hread'
    refine ⟨?_, Or.inr ⟨marker, htext ▸ hS.within, hS.rests.2⟩⟩
    by_contra hterm
    have hterm : body.terminated = false := by simpa using hterm
    -- the newline at the end of the text has been crossed
    have hend : s.cursor.text.size ≤ body.cursor.index := htext ▸ Array.getElem?_eq_none_iff.1 (hnone hterm)
    have hin := hf.shown.length_pos
    have hle := hf.shown.index_add_le
    rw [List.getLast?_eq_getElem?, Array.length_toList] at hlast
    have hlt := Cursor.line_lt_of_newline hr.1 hS.rests.1 htext (e := s.cursor.text.size - 1) (by omega) hlast
      (show s.cursor.text.size - 1 < body.cursor.index by omega)
    rw [hterm] at htest
    have hline : body.cursor.line = s.cursor.line := by simpa using htest
    rw [hline] at hlt
    exact absurd hlt (UInt32.lt_irrefl _)

/-- Whether the cursor has passed the closing delimiter is seen alike. -/
private theorem Ended.passed_within {closing : String} (h : Ended closing body) (hw : w.Fits body.cursor.text) :
    (body.cursor.within w).current? = closing.toList.head? ↔ body.cursor.current? = closing.toList.head? := by
  rcases h.place with hshow | ⟨rfl, hle, -⟩
  · rw [Cursor.current?_within (Or.inl ?_)]
    have hpos := hshow.length_pos
    have hle := hshow.index_add_le
    omega
  · exact Cursor.newline_within hw (Or.inl hle)

/-- Behind an ended construct the cursor is still within the text. -/
private theorem Ended.index_settle_le (h : Ended s.notes.endMarker body) (hn : s.notes.suppressed = false)
    {before : Cursor} (hi : before.index < body.cursor.index) :
    (settle before ((s.behindBody name included body s.notes).skipRest o s.notes.endMarker.length)).cursor.index ≤
      body.cursor.text.size := by
  rcases h.place with hshow | ⟨marker, hle, hcur⟩
  · have hmoves : (s.behindBody name included body s.notes).notes.suppressed = false := by
      simpa [behindBody, passedEnd, hshow.current?_eq] using hn
    rw [index_settle_of_moves before hmoves (by exact hshow)]
    exact hshow.index_add_le
  · have hstays : (s.behindBody name included body s.notes).notes.suppressed = true := by
      simp [behindBody, passedEnd, h.terminated, marker, hcur, Notes.suppress]
    rw [index_settle_of_stays hstays (Nat.ne_of_gt hi)]
    exact hle

private theorem bodyText_within (w : Margins) (opening closing : String) (body : Body) :
    bodyText opening closing (body.within w) = bodyText opening closing body := by
  have hline : (body.cursor.within w).line = body.line + w.lines ↔ body.cursor.line = body.line :=
    UInt32.add_left_inj _
  simp only [bodyText, Body.within, ne_eq, hline]

namespace Carries

private theorem behindBody (h : Carries w past known s t) {m' : Notes} (hm : m.Alike w.lines m')
    (hw : w.Fits body.cursor.text) (hbody : w.behind = [] ∨ Ended m.endMarker body) :
    Carries w past known (s.behindBody name included body m) (t.behindBody name included (body.within w) m') := by
  have hpassed : (body.cursor.within w).current? = m.endMarker.toList.head? ↔
      body.cursor.current? = m.endMarker.toList.head? := by
    rcases hbody with hnil | hended
    · rw [Cursor.current?_within (Or.inr hnil)]
    · exact hended.passed_within hw
  have hleaf : (⟨t.cursor.line, t.cursor.indent, .other, name,
      bodyText t.notes.startMarker m'.endMarker (body.within w)⟩ : Leaf) = Leaf.down w.lines
        ⟨s.cursor.line, s.cursor.indent, .other, name, bodyText s.notes.startMarker m.endMarker body⟩ := by
    rw [h.line, h.indent, h.notes.startMarker, hm.endMarker, bodyText_within]
    rfl
  have hpass : passedEnd m'.endMarker (body.within w) = passedEnd m.endMarker body := by
    simp only [passedEnd, Body.within, hm.endMarker, ne_eq, hpassed]
  have hmiss : missesEnd m'.endMarker (body.within w) = missesEnd m.endMarker body := by
    rw [missesEnd, hm.endMarker]
    rfl
  unfold State.behindBody
  rw [hpass, hmiss, hleaf]
  refine ⟨rfl, ?_, h.word, ?_, ?_⟩
  · cases passedEnd m.endMarker body with
    | true => exact ⟨hm.startMarker, hm.endMarker, rfl, hm.frames⟩
    | false => exact hm
  · cases included with
    | true => exact (h.push (.leaf _)).events
    | false => exact h.events
  · cases missesEnd m.endMarker body with
    | true => simp [h.diagnostics, h.line, Body.within, Diagnostic.moved, Cursor.within]
    | false => exact h.diagnostics

/-- A construct of the same form is handled alike, as long as the text does not cut it short. -/
private theorem construct {f : Form} (h : Carries w past known s t) (hw : w.Fits s.cursor.text)
    (hf : f.Opens ends s.cursor s.notes) (hf' : f.Opens ends (s.cursor.within w) t.notes)
    (closing : Closing ends s.cursor s.notes) (hc : s.cursor.Countable) (hr : s.cursor.Rests o)
    (hs : s.construct o ends name included = .ok () s') (hend : w.behind = [] ∨ s'.cut = false) :
    ∃ t', t.construct o ends name included = .ok () t' ∧ Carries w past known s' t' ∧
      w.Spans s.cursor.text (State.settle s.cursor s').cursor.index := by
  have hopening : s.cursor.Shows s.notes.startMarker := hf.opening ▸ hf.shown
  have hreach : s.cursor.Reaches (s.inside o) := Cursor.reaches_stepsQuiet ..
  obtain ⟨body, hread⟩ := closing.readBody_ok o (s.inside o) s.cursor.line ""
  have htext : body.cursor.text = s.cursor.text := (reaches_readBody hread).text.trans hreach.text
  rw [construct_of_read hread] at hs
  cases hs
  rw [cut_skipRest] at hend
  have hbody : w.behind = [] ∨ Ended s.notes.endMarker body := by
    rcases hend with hnil | hcut
    · exact Or.inl hnil
    · refine hw.behind.imp_right fun hbehind => ?_
      exact Ended.of_read hf closing hc hr hbehind.1 hread hcut
  have hspan : w.Spans s.cursor.text (State.settle s.cursor
      ((s.behindBody name included body s.notes).skipRest o s.notes.endMarker.length)).cursor.index := by
    rw [← htext]
    refine hbody.symm.imp_left fun hended => hended.index_settle_le hf.moves ?_
    exact Nat.lt_of_lt_of_le (Cursor.index_lt_stepsQuiet o (by omega) s.cursor) (reaches_readBody hread).index
  -- the longer text is read from the same place to the same place
  have hinside : t.inside o = (s.inside o).within w := by
    rw [inside, h.notes.startMarker, h.cursor]
    exact Cursor.stepsQuiet_within hw (Or.inl (hopening.index_inside_le o))
  have hread' : readBody o ends (t.inside o) t.cursor.line "" t.notes = .ok (body.within w) t.notes := by
    rw [hinside, h.line]
    exact (readBody_within hw (hf.sameEnd hf' hw) hreach.text hread (hbody.symm.imp_left Ended.terminated)).2
  refine ⟨_, construct_of_read hread', ?_, hspan⟩
  rw [h.notes.endMarker]
  refine (h.behindBody h.notes (htext ▸ hw) hbody).skipRest (htext ▸ hw) ?_
  exact htext ▸ hspan.mono (index_le_settle ..)

end Carries

/-! ### Steps -/

/-- The state as a step begins with it. -/
def fresh (s : State) : State := { s with notes := s.notes.fresh }

private theorem Carries.fresh (h : Carries w past known s t) :
    Carries w past known s.fresh t.fresh := h.withNotes h.notes.fresh

/-- Both runs find a boundary at the place, the same, and leave notes alike. -/
private theorem Carries.dispatch (h : Carries w past known s.fresh t.fresh) (hL : L ∈ Bundled.languages)
    (hw : w.Fits s.cursor.text) (hs : s.Inside) {b : Option Boundary} {n : Notes}
    (found : L.dispatch s.cursor s.notes.fresh = .ok b n) :
    ∃ n', L.dispatch t.cursor t.notes.fresh = .ok b n' ∧
      Carries w past known { s with notes := n } { t with notes := n' } := by
  obtain ⟨n', found', hn⟩ := Bundled.dispatch_within hL hw hs h.notes found
  refine ⟨n', ?_, h.withNotes hn⟩
  rw [show t.cursor = s.cursor.within w from h.cursor]
  exact found'

/-- A step is carried if the boundary that was found is. -/
private theorem Carries.step_of_found (h : Carries w past known s.fresh t.fresh) (hL : L ∈ Bundled.languages)
    (hw : w.Fits s.cursor.text) (hs : s.Inside) {b : Boundary} {n : Notes}
    (found : L.dispatch s.cursor s.notes.fresh = .ok (some b) n) (hstep : s.step L o = .ok () s')
    (hend : w.behind = [] ∨ s'.cut = false)
    (hb : ∀ {u v u' : State}, u.cursor = s.cursor → u.notes = n →
      L.dispatch (s.cursor.within w) t.notes.fresh = .ok (some b) v.notes → Carries w past known u v →
      u.boundary L o b = .ok () u' → (w.behind = [] ∨ u'.cut = false) →
      ∃ v', v.boundary L o b = .ok () v' ∧ Carries w past known u' v' ∧
        w.Spans u.cursor.text (State.settle u.cursor u').cursor.index) :
    ∃ t', t.step L o = .ok () t' ∧ Carries w past known s' t' ∧ w.Spans s.cursor.text s'.cursor.index := by
  have hcur : t.cursor = s.cursor.within w := h.cursor
  obtain ⟨n', found', hcarry⟩ := h.dispatch hL hw hs found
  obtain ⟨s₁, hs₁, rfl⟩ := boundary_of_step found hstep
  have hcu : (State.flush { s with notes := n } L).cursor = s.cursor := cursor_flush ..
  have hnu : (State.flush { s with notes := n } L).notes = n := notes_flush ..
  have hnv : (State.flush { t with notes := n' } L).notes = n' := notes_flush ..
  have hfound : L.dispatch (s.cursor.within w) t.notes.fresh =
      .ok (some b) (State.flush { t with notes := n' } L).notes := by
    rw [hnv, ← hcur]
    exact found'
  rw [cut, diagnostics_settle] at hend
  obtain ⟨t₁, ht₁, hcarry₁, hspan⟩ := hb hcu hnu hfound (hcarry.flush L) hs₁ hend
  rw [hcu] at hspan
  have hsettle := hcarry₁.settle s.cursor
  rw [← hcur] at hsettle
  exact ⟨_, step_eq_of_some found' ht₁, hsettle, hspan⟩

/-- A step is carried by a step, as long as the text does not cut a construct short there. -/
theorem Carries.step (h : Carries w past known s.fresh t.fresh) (hL : L ∈ Bundled.languages) (hh : s.Honest L)
    (hw : w.Fits s.cursor.text) (hs : s.Inside) (hc : s.cursor.Countable) (hr : s.cursor.Stamps o s.cursor.index)
    (hstep : s.step L o = .ok () s') (hend : w.behind = [] ∨ s'.cut = false) :
    ∃ t', t.step L o = .ok () t' ∧ Carries w past known s' t' ∧ w.Spans s.cursor.text s'.cursor.index := by
  have hconstruct : ∀ {b : Boundary} {n : Notes}, b.isConstruct = true →
      L.dispatch s.cursor s.notes.fresh = .ok (some b) n → Closing (L.predicate b.closing) s.cursor n →
      ∃ t', t.step L o = .ok () t' ∧ Carries w past known s' t' ∧ w.Spans s.cursor.text s'.cursor.index := by
    intro b n hb found closing
    refine h.step_of_found hL hw hs found hstep hend fun {u v u'} hcu hnu found' hcarry hu hend => ?_
    obtain ⟨f, hf, hf'⟩ := Bundled.opens_within hL hw hs hb found rfl found' rfl
    rw [← hcu] at hw hc hr hf' closing hf
    rw [← hnu] at closing hf
    rw [boundary_construct hb] at hu ⊢
    exact hcarry.construct hw hf hf' closing hc ⟨hr, hf.shown.current?_ne⟩ hu hend
  cases hh with
  | @plain n found moves =>
    obtain ⟨n', found', hcarry⟩ := h.dispatch hL hw hs found
    rw [step_eq_of_none found] at hstep
    cases hstep
    have hsettle := (hcarry.plain (L := L) (o := o) hw hs).settle s.cursor
    rw [← show t.cursor = s.cursor.within w from h.cursor] at hsettle
    refine ⟨_, step_eq_of_none found', hsettle, Or.inl ?_⟩
    rw [settle_of_moves _ (by rw [(frame_plain ..).1]; exact moves)]
    exact index_plain_lt (s := { s with notes := n }) hs
  | string found moves opening closing => exact hconstruct rfl found closing
  | comment found moves opening closing => exact hconstruct rfl found closing
  | opened found moves opening =>
    refine h.step_of_found hL hw hs found hstep hend fun {u v u'} hcu hnu _ hcarry hu _ => ?_
    rw [← hcu] at hw opening
    rw [← hnu] at moves opening
    exact hcarry.scopeStart hw moves opening hu
  | closed found moves closing =>
    refine h.step_of_found hL hw hs found hstep hend fun {u v u'} hcu hnu _ hcarry hu _ => ?_
    rw [← hcu] at hw closing
    rw [← hnu] at moves closing
    exact hcarry.scopeEnd hw moves closing hu
  | @dedented n found stays silent inner =>
    obtain ⟨n', found', hcarry⟩ := h.dispatch hL hw hs found
    rw [step_of_dedented found stays silent inner] at hstep
    cases hstep
    have hstays : n'.suppressed = true := hcarry.notes.suppressed.trans stays
    have hsilent : n'.endMarker = "" := hcarry.notes.endMarker.trans silent
    have hinner : t.cursor.depth ≠ 0 := hcarry.depth ▸ inner
    refine ⟨_, step_of_dedented found' hstays hsilent hinner, (hcarry.flush L).closeScope, Or.inl ?_⟩
    rw [cursor_closeScope, cursor_flush]
    exact Nat.le_of_lt hs

/-! ### Runs -/

/-- Once a construct has been cut short, it stays so. -/
private theorem cut_of_step (h : s.step L o = .ok () s') (hcut : s.cut = true) : s'.cut = true := by
  obtain ⟨new, problems, -, -, hd⟩ := emits_step h
  rw [cut, ← Array.any_toList] at hcut ⊢
  rw [hd, List.any_append, hcut, Bool.true_or]

/-- A run over a text is carried by a run over the longer one, as long as the text cuts no construct short. -/
theorem Runs.carried {text : String} {heads : List State} {u v : State} (h : Runs L o (start text) heads u)
    (hL : L ∈ Bundled.languages) (hlen : text.length < UInt32.size - 1) (hw : w.Fits text.toList.toArray)
    (hv : Carries w past known (start text).fresh v.fresh) (hend : w.behind = [] ∨ u.cut = false) :
    ∃ heads' v', Runs L o v heads' v' ∧ Carries w past known u.fresh v'.fresh ∧
      w.Spans u.cursor.text u.cursor.index := by
  refine h.induction_snoc (P := fun _ u => (w.behind = [] ∨ u.cut = false) →
    ∃ heads' v', Runs L o v heads' v' ∧ Carries w past known u.fresh v'.fresh ∧
      w.Spans u.cursor.text u.cursor.index) ?_ ?_ hend
  · intro _
    exact ⟨[], v, .done v, hv, Or.inl (Nat.zero_le _)⟩
  · intro heads u u' hr ih hu hstep hend
    obtain ⟨hE, ht, -⟩ := hr.exact_of_start (Or.inl hL) hlen
    have htext : u.cursor.text = text.toList.toArray := Array.ext' ht
    -- what is cut short stays so, hence nothing has been cut short before this step
    have hbefore : w.behind = [] ∨ u.cut = false := by
      refine hend.imp_right fun hcut => ?_
      by_contra hne
      rw [cut_of_step hstep (by simpa using hne)] at hcut
      cases hcut
    obtain ⟨heads', v', hruns, hcarry, -⟩ := ih hbefore
    obtain ⟨v'', hstep', hcarry', hspan⟩ := hcarry.step hL (hr.honest hL).2 (htext ▸ hw) hu
      (Cursor.countable_of_toList ht hlen) hE.stamps hstep hend
    have hin : v'.Inside := by
      have hu : u.cursor.index < u.cursor.text.size := hu
      have hcur : v'.cursor = u.cursor.within w := hcarry.cursor
      have hsize := Margins.size_around w u.cursor.text
      rw [Inside, hcur, Cursor.within]
      simp only
      omega
    refine ⟨heads' ++ [v'], v'', hruns.snoc hin hstep', hcarry'.fresh, ?_⟩
    rw [text_step hstep]
    exact hspan

end State

end LexTree
