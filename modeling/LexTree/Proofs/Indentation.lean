import LexTree.Proofs.Bundled
import LexTree.Proofs.Leaves
import LexTree.Proofs.Progress

/-!
# Indents and the options that measure them

The width of an indent level and the worth of a tab decide the indents that a scan writes down, and nothing else, as
long as no predicate reads them.  Two scans of one text under different measures go in step (`InStep`): their states
agree but for the indents, and every move keeps it so.  The predicates of Java and Dull never read an indent; those of
Python read it only to close a block, so a text in which no block opens is scanned alike by them too.
-/

namespace LexTree

/-! ### Trees without indents -/

def Leaf.unindented (l : Leaf) : Leaf := { l with indent := 0 }

mutual

/-- The token with every indent erased. -/
def Token.unindented : Token → Token
  | .leaf l => .leaf l.unindented
  | .marker line _ scope => .marker line 0 scope.unindented

/-- The scope with the indents of its leaves and markers erased, at every depth. -/
def Scope.unindented : Scope → Scope
  | ⟨label, ⟨tokens⟩, children⟩ => ⟨label, ⟨Token.unindentedList tokens⟩, children⟩

/-- The token sequence with every indent erased. -/
def Token.unindentedList : List Token → List Token
  | [] => []
  | t :: ts => t.unindented :: Token.unindentedList ts

end

def Event.unindented : Event → Event
  | leaf l => leaf l.unindented
  | opened line _ => opened line 0
  | closed => closed

private theorem Token.unindentedList_eq_map (ts : List Token) : unindentedList ts = ts.map unindented := by
  induction ts with
  | nil => rfl
  | cons t ts ih => rw [unindentedList, ih, List.map_cons]

private theorem Token.isMarker_unindented (t : Token) : t.unindented.isMarker = t.isMarker := by
  cases t <;> rfl

private theorem Scope.unindented_push (s : Scope) (t : Token) :
    (s.push t).unindented = s.unindented.push t.unindented := by
  obtain ⟨label, ⟨tokens⟩, children⟩ := s
  simp [push, unindented, Token.unindentedList_eq_map, Token.isMarker_unindented]

namespace Draft

/-- The draft with every indent erased. -/
def unindented (d : Draft) : Draft :=
  ⟨d.root.unindented, d.nested.map fun p => ⟨p.scope.unindented, p.line, 0⟩⟩

private theorem unindented_push (d : Draft) (t : Token) : (d.push t).unindented = d.unindented.push t.unindented := by
  obtain ⟨root, _ | ⟨⟨scope, line, indent⟩, rest⟩⟩ := d
  all_goals simp only [push, unindented, Scope.unindented_push, List.map_nil, List.map_cons]

private theorem unindented_apply (d : Draft) (e : Event) :
    (d.apply e).unindented = d.unindented.apply e.unindented := by
  cases e with
  | leaf l => exact unindented_push d (.leaf l)
  | opened line indent => rfl
  | closed =>
    obtain ⟨root, _ | ⟨⟨scope, line, indent⟩, rest⟩⟩ := d
    · rfl
    · exact unindented_push ⟨root, rest⟩ (.marker line indent scope)

private theorem unindented_foldl (d : Draft) (es : List Event) :
    (es.foldl apply d).unindented = (es.map Event.unindented).foldl apply d.unindented := by
  induction es generalizing d with
  | nil => rfl
  | cons e es ih => rw [List.foldl_cons, ih, unindented_apply, List.map_cons, List.foldl_cons]

private theorem unindented_closeWith (root : Scope) (t : Token) (nested : List OpenScope) :
    (closeWith root t nested).unindented =
      closeWith root.unindented t.unindented (nested.map fun p => ⟨p.scope.unindented, p.line, 0⟩) := by
  induction nested generalizing t with
  | nil => rw [List.map_nil, closeWith, closeWith, Scope.unindented_push]
  | cons p rest ih => rw [List.map_cons, closeWith, closeWith, ih, Token.unindented, Scope.unindented_push]

private theorem unindented_finish (d : Draft) : d.finish.unindented = d.unindented.finish := by
  obtain ⟨root, _ | ⟨⟨scope, line, indent⟩, rest⟩⟩ := d
  · rfl
  · exact unindented_closeWith root (.marker line indent scope) rest

end Draft

/-- Erasing the indents of a history erases those of its tree. -/
private theorem Scope.unindented_ofEvents (events : Array Event) :
    (ofEvents events).unindented = ((events.toList.map Event.unindented).foldl Draft.apply {}).finish := by
  rw [ofEvents, Draft.unindented_finish, Draft.ofEvents, ← Array.foldl_toList, Draft.unindented_foldl]
  rfl

/-! ### Cursors -/

/-- The options agree on which leaves are kept. -/
structure Options.SameFilters (o o' : Options) : Prop where
  strings : o.includeStrings = o'.includeStrings
  comments : o.includeComments = o'.includeComments
  whitespace : o.includeWhitespace = o'.includeWhitespace
  newlines : o.includeNewlines = o'.includeNewlines

/-- The cursors agree but for the indent. -/
structure Cursor.SamePlace (c d : Cursor) : Prop where
  text : c.text = d.text
  index : c.index = d.index
  line : c.line = d.line
  depth : c.depth = d.depth

namespace Cursor.SamePlace

variable {o o' : Options} {c d : Cursor}

private theorem eq_with (h : c.SamePlace d) : d = { c with indent := d.indent } := by
  obtain ⟨ht, hi, hl, hd⟩ := h
  cases d
  simp_all

private theorem current? (h : c.SamePlace d) : c.current? = d.current? := by
  rw [Cursor.current?, Cursor.current?, h.text, h.index]

private theorem advance (h : c.SamePlace d) : (c.advance o).SamePlace (d.advance o') := by
  have hnext : ∀ c d : Cursor, c.SamePlace d →
      SamePlace { c with index := c.index + 1 } { d with index := d.index + 1 } := by
    rintro c d ⟨ht, hi, hl, hd⟩
    exact ⟨ht, by rw [hi], hl, hd⟩
  simp only [Cursor.advance, (hnext c d h).current?]
  split
  · exact ⟨h.text, congrArg (· + 1) h.index, congrArg (· + 1) h.line, h.depth⟩
  · exact hnext c d h

private theorem stepQuiet (h : c.SamePlace d) : (c.stepQuiet o).SamePlace (d.stepQuiet o') := by
  have hnext : (c.advance o).SamePlace (d.advance o') := h.advance
  obtain ⟨n, hloop, -⟩ := Cursor.loop_stepQuiet o c
  generalize c.stepQuiet o = e at hloop ⊢
  induction hloop generalizing d with
  | stop hstop =>
    obtain ⟨hn, hd⟩ := hstop
    rw [hd, Cursor.stepQuiet, dif_neg fun hn' => hn (hnext.current?.trans hn')]
    exact hnext
  | turn hturn rest ih =>
    obtain ⟨hn, rfl⟩ := hturn
    rw [Cursor.stepQuiet.eq_1 o' d, dif_pos (hnext.current?.symm.trans hn)]
    exact ih hnext hnext.advance

private theorem stepsQuiet (h : c.SamePlace d) (n : Nat) : (c.stepsQuiet o n).SamePlace (d.stepsQuiet o' n) := by
  induction n generalizing c d with
  | zero => exact h
  | succ n ih => exact ih h.stepQuiet

end Cursor.SamePlace

/-- The predicate does not read the indent. -/
def Predicate.IgnoresIndent (p : Predicate) : Prop := ∀ (c : Cursor) (indent : UInt32), p { c with indent } = p c

private theorem Predicate.IgnoresIndent.eq {p : Predicate} (hp : p.IgnoresIndent) {c d : Cursor} (h : c.SamePlace d) :
    p d = p c := by
  rw [h.eq_with]
  exact hp c d.indent

/-- The bodies agree but for the indent of the cursor. -/
structure Body.SamePlace (body body' : Body) : Prop where
  cursor : body.cursor.SamePlace body'.cursor
  line : body.line = body'.line
  text : body.text = body'.text
  terminated : body.terminated = body'.terminated

private theorem readBody_samePlace {o : Options} (o' : Options) {ends : Predicate} (hends : ends.IgnoresIndent)
    {c d : Cursor} {line : UInt32} {text : String} {n m : Notes} {body : Body} (h : c.SamePlace d)
    (hread : readBody o ends c line text n = .ok body m) :
    ∃ body', readBody o' ends d line text n = .ok body' m ∧ body.SamePlace body' := by
  revert d
  fun_induction readBody o ends c line text n with
  | case1 => simp at hread
  | case2 c line text n n₁ h₁ =>
    intro d h
    cases hread
    refine ⟨⟨d, line, text, true⟩, ?_, h, rfl, rfl, rfl⟩
    rw [readBody, hends.eq h, h₁]
  | case3 c line text n n₁ h₁ hc =>
    intro d h
    cases hread
    refine ⟨⟨d, line, text, false⟩, ?_, h, rfl, rfl, rfl⟩
    rw [readBody, hends.eq h, h₁]
    simp only
    split
    · rfl
    · rename_i ch hch
      rw [← h.current?, hc] at hch
      cases hch
  | case4 c line text n n₁ h₁ ch hc text' ih =>
    intro d h
    have hnext : (c.stepQuiet o).SamePlace (d.stepQuiet o') := h.stepQuiet
    obtain ⟨body', hread', hsame⟩ := ih hread hnext
    refine ⟨body', ?_, hsame⟩
    rw [readBody, hends.eq h, h₁]
    simp only
    split
    · rename_i hch
      rw [← h.current?, hc] at hch
      cases hch
    · rename_i ch' hch
      rw [← h.current?, hc] at hch
      cases hch
      rw [← h.line]
      exact hread'

/-! ### Moves -/

namespace State

/-- The states agree but for their indents. -/
structure InStep (s t : State) : Prop where
  cursor : s.cursor.SamePlace t.cursor
  notes : s.notes = t.notes
  events : s.events.toList.map Event.unindented = t.events.toList.map Event.unindented
  word : s.word = t.word
  diagnostics : s.diagnostics = t.diagnostics

variable {L : Language} {o o' : Options} {s s' t : State} {heads : List State}

namespace InStep

private theorem emit (h : s.InStep t) (rule : Rule) (name text : String) :
    (s.emit rule name text).InStep (t.emit rule name text) := by
  refine ⟨h.cursor, h.notes, ?_, h.word, h.diagnostics⟩
  simp [State.emit, h.events, Event.unindented, Leaf.unindented, h.cursor.line]

private theorem flush (h : s.InStep t) : (s.flush L).InStep (t.flush L) := by
  unfold State.flush
  rw [h.word]
  split
  · exact h
  · exact { h.emit _ _ t.word with word := rfl }

private theorem crossNewline (h : s.InStep t) (hf : o.SameFilters o') :
    (s.crossNewline o).InStep (t.crossNewline o') := by
  have hrun : s.cursor.blankRun (s.cursor.index + 1) = t.cursor.blankRun (t.cursor.index + 1) := by
    rw [Cursor.blankRun_eq, Cursor.blankRun_eq, h.cursor.text, h.cursor.index]
  have hcross : ((s.crossedLeaves o).map Event.leaf).map Event.unindented =
      ((t.crossedLeaves o').map Event.leaf).map Event.unindented := by
    simp only [crossedLeaves, hf.newlines, hf.whitespace, hrun, h.cursor.line]
    split <;> split <;> rfl
  refine ⟨?_, ?_, ?_, ?_, ?_⟩
  · rw [cursor_crossNewline, cursor_crossNewline, hrun]
    exact ⟨h.cursor.text, congrArg (· + _) h.cursor.index, congrArg (· + 1) h.cursor.line, h.cursor.depth⟩
  · rw [crossNewline_eq, crossNewline_eq t]
    exact h.notes
  · rw [events_crossNewline, events_crossNewline, List.map_append, List.map_append, h.events, hcross]
  · rw [crossNewline_eq, crossNewline_eq t]
    exact h.word
  · rw [crossNewline_eq, crossNewline_eq t]
    exact h.diagnostics

private theorem newline (h : s.InStep t) (hf : o.SameFilters o') : (s.newline o).InStep (t.newline o') := by
  obtain ⟨n, hloop, -⟩ := loop_newline o s
  generalize s.newline o = e at hloop ⊢
  have hpeek : ∀ {s t : State}, s.InStep t → s.cursor.peek? 1 = t.cursor.peek? 1 := by
    intro s t h
    rw [Cursor.peek?, Cursor.peek?, h.cursor.text, h.cursor.index]
  induction hloop generalizing t with
  | stop hstop =>
    obtain ⟨hn, rfl⟩ := hstop
    have hnext := h.crossNewline hf
    rw [State.newline, dif_neg fun hn' => hn ((hpeek hnext).trans hn')]
    exact hnext
  | turn hturn rest ih =>
    obtain ⟨hn, rfl⟩ := hturn
    have hnext := h.crossNewline hf
    rw [State.newline, dif_pos ((hpeek hnext).symm.trans hn)]
    obtain ⟨⟨ht, hi, hl, hd⟩, hnotes, hevents, hword, hdiag⟩ := hnext
    exact ih ⟨⟨ht, congrArg (· + 1) hi, hl, hd⟩, hnotes, hevents, hword, hdiag⟩

private theorem plain (h : s.InStep t) (hf : o.SameFilters o') : (s.plain L o).InStep (t.plain L o') := by
  unfold State.plain
  rw [h.cursor.current?]
  split
  · exact h
  · split
    · exact { h with word := by rw [h.word] }
    · simp only
      split
      · exact h.flush.newline hf
      · rw [hf.whitespace]
        split
        · exact h.flush
        · exact h.flush.emit _ _ _

private theorem delimiter (h : s.InStep t) (text : String) : (s.delimiter L text).InStep (t.delimiter L text) := by
  unfold State.delimiter
  split
  · exact h
  · exact h.emit _ _ _

private theorem openScope (h : s.InStep t) : s.openScope.InStep t.openScope := by
  obtain ⟨⟨ht, hi, hl, hd⟩, hnotes, hevents, hword, hdiag⟩ := h
  refine ⟨⟨ht, hi, hl, congrArg (· + 1) hd⟩, hnotes, ?_, hword, hdiag⟩
  simp [State.openScope, hevents, Event.unindented, hl]

private theorem closeScope (h : s.InStep t) : s.closeScope.InStep t.closeScope := by
  obtain ⟨⟨ht, hi, hl, hd⟩, hnotes, hevents, hword, hdiag⟩ := h
  unfold State.closeScope
  rw [hd]
  split
  · refine ⟨⟨ht, hi, hl, hd⟩, hnotes, hevents, hword, ?_⟩
    simp [report, hdiag, hl, hi]
  · refine ⟨⟨ht, hi, hl, rfl⟩, hnotes, ?_, hword, hdiag⟩
    simp [hevents]

private theorem skipRest (h : s.InStep t) (length : Nat) : (s.skipRest o length).InStep (t.skipRest o' length) := by
  unfold State.skipRest
  rw [h.notes]
  split
  · exact h
  · exact ⟨h.cursor.stepsQuiet _, rfl, h.events, h.word, h.diagnostics⟩

private theorem behindBody (h : s.InStep t) {body body' : Body} (hb : body.SamePlace body') (name : String)
    (included : Bool)
    (m : Notes) : (s.behindBody name included body m).InStep (t.behindBody name included body' m) := by
  have htext : bodyText t.notes.startMarker m.endMarker body = bodyText t.notes.startMarker m.endMarker body' := by
    simp only [bodyText, hb.cursor.line, hb.line, hb.text, hb.terminated]
  have hpassed : passedEnd m.endMarker body = passedEnd m.endMarker body' := by
    simp only [passedEnd, hb.cursor.current?, hb.terminated]
  have hmisses : missesEnd m.endMarker body = missesEnd m.endMarker body' := by
    simp only [missesEnd, hb.terminated]
  refine ⟨hb.cursor, ?_, ?_, h.word, ?_⟩
  · simp only [State.behindBody, hpassed]
  · rw [events_behindBody, events_behindBody, List.map_append, List.map_append, h.events, h.notes, htext]
    cases included
    · rfl
    · simp [Event.unindented, Leaf.unindented, h.cursor.line]
  · simp only [State.behindBody, hmisses, hb.cursor.index, h.diagnostics, h.cursor.line]

private theorem settle (h : s'.InStep t) {c d : Cursor} (hc : c.SamePlace d) :
    (State.settle c s').InStep (State.settle d t) := by
  have hmove : s'.moveOn.InStep t.moveOn := by
    obtain ⟨⟨ht, hi, hl, hd⟩, hnotes, hevents, hword, hdiag⟩ := h
    exact ⟨⟨ht, congrArg (· + 1) hi, hl, hd⟩, hnotes, hevents, hword, hdiag⟩
  unfold State.settle
  rw [h.notes, h.cursor.index, h.cursor.depth, hc.index, hc.depth]
  split
  · split
    · exact hmove
    · exact h
  · exact hmove

/-- Handling a boundary keeps states in step, if the ends of constructs are found without regard to the indent. -/
private theorem boundary (h : s.InStep t) (hf : o.SameFilters o')
    (hends : ∀ b : Boundary, b.isConstruct = true → (L.predicate b.closing).IgnoresIndent) {b : Boundary}
    (hb : s.boundary L o b = .ok () s') : ∃ t', t.boundary L o' b = .ok () t' ∧ s'.InStep t' := by
  by_cases hc : b.isConstruct = true
  · rw [boundary_construct hc] at hb ⊢
    obtain ⟨body, m, hread, rfl⟩ := read_of_construct hb
    have hinside : (s.inside o).SamePlace (t.inside o') := by
      rw [inside, inside, h.notes]
      exact h.cursor.stepsQuiet _
    obtain ⟨body', hread', hbody⟩ := readBody_samePlace o' (hends b hc) hinside hread
    rw [h.cursor.line, h.notes] at hread'
    have hincluded : b.included o = b.included o' := by
      cases b <;> simp [Boundary.included, hf.strings, hf.comments]
    refine ⟨_, construct_of_read hread', ?_⟩
    rw [hincluded]
    exact (h.behindBody hbody _ _ m).skipRest _
  · cases b with
    | stringStart | commentStart => exact absurd rfl hc
    | scopeStart =>
      refine ⟨_, rfl, ?_⟩
      rw [eq_of_scopeStart hb, h.notes]
      exact (h.delimiter _).openScope.skipRest _
    | scopeEnd =>
      refine ⟨_, rfl, ?_⟩
      rw [eq_of_scopeEnd hb, h.notes]
      exact (h.closeScope.delimiter _).skipRest _

/-- A step keeps states in step, if the boundary under the cursor is found without regard to the indent. -/
private theorem step (h : s.InStep t) (hf : o.SameFilters o')
    (hends : ∀ b : Boundary, b.isConstruct = true → (L.predicate b.closing).IgnoresIndent)
    (hfound : ∀ indent, L.dispatch { s.cursor with indent } s.notes.fresh = L.dispatch s.cursor s.notes.fresh)
    (hstep : s.step L o = .ok () s') : ∃ t', t.step L o' = .ok () t' ∧ s'.InStep t' := by
  have hsame : L.dispatch t.cursor t.notes.fresh = L.dispatch s.cursor s.notes.fresh := by
    rw [← h.notes, h.cursor.eq_with]
    exact hfound t.cursor.indent
  have hnotes : ∀ n : Notes, InStep { s with notes := n } { t with notes := n } := fun n =>
    ⟨h.cursor, rfl, h.events, h.word, h.diagnostics⟩
  obtain ⟨n, found, rfl⟩ | ⟨b, n, s₁, found, hb, rfl⟩ := step_cases hstep
  · exact ⟨_, step_eq_of_none (hsame.trans found), ((hnotes n).plain hf).settle h.cursor⟩
  · obtain ⟨t₁, ht₁, h₁⟩ := (hnotes n).flush.boundary hf hends hb
    exact ⟨_, step_eq_of_some (hsame.trans found) ht₁, h₁.settle h.cursor⟩

end InStep

/-- States in step lead to states in step. -/
private theorem Runs.inStep (h : Runs L o s heads s') (hst : s.InStep t) (hf : o.SameFilters o')
    (hends : ∀ b : Boundary, b.isConstruct = true → (L.predicate b.closing).IgnoresIndent)
    (hfound : ∀ u ∈ heads, ∀ indent,
      L.dispatch { u.cursor with indent } u.notes.fresh = L.dispatch u.cursor u.notes.fresh) :
    ∃ heads' t', Runs L o' t heads' t' ∧ s'.InStep t' := by
  induction h generalizing t with
  | done s => exact ⟨[], t, .done t, hst⟩
  | @step s s₁ s' heads hin hstep rest ih =>
    obtain ⟨hhead, htail⟩ := List.forall_mem_cons.1 hfound
    obtain ⟨t₁, ht₁, h₁⟩ := hst.step hf hends hhead hstep
    obtain ⟨heads', t', hr, h'⟩ := ih h₁ htail
    refine ⟨t :: heads', t', .step ?_ ht₁ hr, h'⟩
    rw [Inside, ← hst.cursor.index, ← hst.cursor.text]
    exact hin

private theorem InStep.finish (h : s.InStep t) (L : Language) :
    (s.finish L).diagnostics = (t.finish L).diagnostics ∧
      (s.finish L).root.unindented = (t.finish L).root.unindented := by
  have hflush : (s.flush L).InStep (t.flush L) := h.flush
  refine ⟨hflush.diagnostics, ?_⟩
  rw [State.finish, State.finish, Scope.unindented_ofEvents, Scope.unindented_ofEvents, hflush.events]

end State

/-! ### The bundled languages -/

/-- No bundled language reads the indent to find the end of a string or comment. -/
private theorem Bundled.ignoresIndent_closing {L : Language} (hL : L ∈ languages) {b : Boundary}
    (hb : b.isConstruct = true) : (L.predicate b.closing).IgnoresIndent := by
  intro c indent
  simp only [languages, List.mem_cons, List.not_mem_nil, or_false] at hL
  rcases hL with rfl | rfl | rfl
  all_goals
    cases b with
    | stringStart | commentStart => rfl
    | scopeStart | scopeEnd => cases hb

private theorem Java.dispatch_indent (c : Cursor) (n : Notes) (indent : UInt32) :
    language.dispatch { c with indent } n = language.dispatch c n := rfl

private theorem Dull.dispatch_indent (c : Cursor) (n : Notes) (indent : UInt32) :
    language.dispatch { c with indent } n = language.dispatch c n := rfl

/-- Two places are found alike if the predicates answer alike there under the notes that they leave behind. -/
private theorem Language.firstBoundary_congr {L : Language} {c d : Cursor} {P : Notes → Prop}
    (clear : ∀ n, P n → P n.clearMarkers)
    (same : ∀ (b : Boundary) n, P n → L.predicate b.edge d n = L.predicate b.edge c n)
    (keep : ∀ (b : Boundary) n n', P n → L.predicate b.edge c n = .ok false n' → P n') (bs : List Boundary) {n : Notes}
    (hn : P n) :
    L.firstBoundary d bs n = L.firstBoundary c bs n := by
  induction bs generalizing n with
  | nil => rfl
  | cons b bs ih =>
    rw [firstBoundary, firstBoundary, same b _ (clear n hn)]
    cases h : L.predicate b.edge c n.clearMarkers with
    | error e n' => rfl
    | ok found n' =>
      cases found with
      | true => rfl
      | false => exact ih (keep b _ n' (clear n hn) h)

namespace Python

/-- No colon of the text ends its line: behind it, after blanks, stands something else than a newline or a comment. -/
def OpensNoBlock (cs : List Char) : Prop :=
  ∀ i, cs[i]? = some ':' → ∃ ch, ((cs.drop (i + 1)).dropWhile isBlank).head? = some ch ∧ ch ≠ '\n' ∧ ch ≠ '#'

private theorem OpensNoBlock.endsLine_eq {c : Cursor} (h : OpensNoBlock c.text.toList) (hc : c.current? = some ':') :
    endsLine c = false := by
  obtain ⟨ch, hch, hn, hhash⟩ := h c.index (by rw [Array.getElem?_toList]; exact hc)
  rw [endsLine, Cursor.firstNonBlank?, getElem?_blankRunEnd, hch]
  split
  · contradiction
  · simp_all
  · simp_all
  · rfl

/-- With no block open, and none that opens here, Python does not read the indent. -/
private theorem dispatch_indent {c : Cursor} {n : Notes} (hf : n.scratch.scope.frames = [])
    (hc : c.current? = some ':' → endsLine c = false) (indent : UInt32) :
    language.dispatch { c with indent } n = language.dispatch c n := by
  have hblock : ∀ (d : Cursor) (n : Notes), n.scratch.scope.frames = [] → closesBlock d n = false := by
    intro d n hn
    simp [closesBlock, Scratch.topFrame?, Scratch.slot, hn]
  have hcolon : ∀ n, scopeStart { c with indent } n = .ok false n ∧ scopeStart c n = .ok false n := by
    have hno : ¬ (c.current? = some ':' && endsLine c) = true := by
      by_cases h : c.current? = some ':' <;> simp [h, hc]
    exact fun n => ⟨if_neg hno, if_neg hno⟩
  refine Language.firstBoundary_congr (P := fun n => n.scratch.scope.frames = []) (fun n hn => hn) ?_ ?_ _ hf
  · intro b n hn
    cases b with
    | stringStart =>
      show stringStart _ n = stringStart c n
      rw [stringStart, stringStart, hblock _ n hn, hblock _ n hn]
      rfl
    | commentStart => rfl
    | scopeStart =>
      show scopeStart _ n = scopeStart c n
      rw [(hcolon n).1, (hcolon n).2]
    | scopeEnd =>
      show scopeEnd _ n = scopeEnd c n
      rw [scopeEnd, scopeEnd, hblock _ n hn, hblock _ n hn]
  · intro b n n' hn h
    cases b with
    | stringStart =>
      have h : stringStart c n = .ok false n' := h
      rw [stringStart, hblock c n hn, if_neg (by decide)] at h
      split at h
      · cases h
      · cases h
        exact hn
    | commentStart =>
      have h : commentStart c n = .ok false n' := h
      unfold commentStart at h
      split at h
      · cases h
      · cases h
        exact hn
    | scopeStart =>
      have h : scopeStart c n = .ok false n' := h
      rw [(hcolon n).2] at h
      cases h
      exact hn
    | scopeEnd =>
      have h : scopeEnd c n = .ok false n' := h
      rw [scopeEnd, hblock c n hn, if_neg (by decide)] at h
      cases h
      exact hn

/-- In a text in which no block opens, Python keeps no frames. -/
private theorem frames_eq_nil {o : Options} {text : String} {heads : List State} {t : State}
    (h : State.Runs language o (State.start text) heads t) (htext : OpensNoBlock text.toList) :
    ∀ u ∈ heads, u.cursor.text.toList = text.toList ∧ u.notes.scratch.scope.frames = [] := by
  -- no step opens a scope, so none is ever open
  have hdepth := h.invariant (P := fun u => u.cursor.text.toList = text.toList ∧ u.cursor.depth = 0)
    ⟨by simp [State.start, Cursor.ofString], rfl⟩ (by
      rintro u u' ⟨ht, hd⟩ - hstep
      refine ⟨by rw [State.text_step hstep, ht], ?_⟩
      have hle := State.depth_step_le hstep
      have hopens : State.opensScope language u = false := by
        rw [State.opensScope, decide_eq_false_iff_not]
        intro hfound
        obtain ⟨n, found⟩ := State.dispatch_of_found hfound
        rcases dispatch_cases u.cursor u.notes.fresh with
          ⟨quote, -, -, hd'⟩ | ⟨-, hd'⟩ | ⟨hc, hends, hd'⟩ | ⟨frame, frames, -, -, hd'⟩ | ⟨-, -, hd'⟩
        all_goals
          rw [found] at hd'
          cases hd'
        rw [(ht ▸ htext : OpensNoBlock u.cursor.text.toList).endsLine_eq hc] at hends
        cases hends
      rw [hd, hopens] at hle
      exact Nat.le_zero.1 hle)
  intro u hu
  refine ⟨(hdepth.1 u hu).1, ?_⟩
  have hlock : u.notes.scratch.scope.frames = u.draft.frames := h.lockstep.1 u hu
  rw [hlock, ← List.length_eq_zero_iff, Draft.length_frames, ← h.depth_eq.1 u hu]
  exact (hdepth.1 u hu).2

end Python

open State in
/-- The measure of indentation decides the indents and nothing else.  Under any two usable options that keep the same
leaves, a text is scanned with the same diagnostics and into the same tree, apart from the indents of its leaves and
markers, by the languages whose scopes have delimiters; and by Python if no block opens in the text. -/
theorem scan_unindented {L : Language} {o o' : Options} {text : String} (ho : o.validate = .ok ())
    (ho' : o'.validate = .ok ()) (hf : o.SameFilters o')
    (hL : L = Java.language ∨ L = Dull.language ∨ L = Python.language ∧ Python.OpensNoBlock text.toList) :
    ∃ out out', scan L o text = .ok out ∧ scan L o' text = .ok out' ∧ out.diagnostics = out'.diagnostics ∧
      out.root.unindented = out'.root.unindented := by
  have hmem : L ∈ Bundled.languages := by
    rcases hL with rfl | rfl | ⟨rfl, -⟩ <;> simp [Bundled.languages]
  obtain ⟨heads, t, hr, ht, hscan⟩ := scan_bundled hmem ho text
  have hfound : ∀ u ∈ heads, ∀ indent,
      L.dispatch { u.cursor with indent } u.notes.fresh = L.dispatch u.cursor u.notes.fresh := by
    intro u hu indent
    rcases hL with rfl | rfl | ⟨rfl, htext⟩
    · exact Java.dispatch_indent ..
    · exact Dull.dispatch_indent ..
    · obtain ⟨hu, hframes⟩ := Python.frames_eq_nil hr htext u hu
      refine Python.dispatch_indent (n := u.notes.fresh) hframes (fun hc => ?_) indent
      exact (hu ▸ htext : Python.OpensNoBlock u.cursor.text.toList).endsLine_eq hc
  have hstart : (start text).InStep (start text) := ⟨⟨rfl, rfl, rfl, rfl⟩, rfl, rfl, rfl, rfl⟩
  obtain ⟨heads', t', hr', hinStep⟩ := hr.inStep hstart hf (fun _ => Bundled.ignoresIndent_closing hmem) hfound
  obtain ⟨hdiag, hroot⟩ := hinStep.finish L
  have hend : ¬ t'.Inside := by
    rw [Inside, ← hinStep.cursor.index, ← hinStep.cursor.text]
    exact ht
  have hvalid := (scan_eq_ok_iff.1 hscan).1
  exact ⟨_, _, hscan, scan_eq_ok_iff.2 ⟨hvalid, ho', heads', t', hr', hend, rfl⟩, hdiag, hroot⟩

/-- A tab is worth a level or nothing, and all else is the same. -/
theorem scan_unindented_python :
    Python.OpensNoBlock "a: b\n\tc: d".toList ∧
      ∃ out out', scan Python.language {} "a: b\n\tc: d" = .ok out ∧
        scan Python.language { indentWidth := 1, allowTabs := false } "a: b\n\tc: d" = .ok out' ∧
        out.root.flatten.toList.map Leaf.indent = [0, 0, 0, 1, 1, 1] ∧
        out'.root.flatten.toList.map Leaf.indent = [0, 0, 0, 0, 0, 0] ∧
        out.diagnostics = out'.diagnostics ∧ out.root.unindented = out'.root.unindented := by
  have hopens : Python.OpensNoBlock "a: b\n\tc: d".toList := by
    have hcolons : ∀ i < "a: b\n\tc: d".toList.length, "a: b\n\tc: d".toList[i]? = some ':' → i = 1 ∨ i = 7 := by
      decide
    intro i hi
    rcases hcolons i (List.getElem?_eq_some_iff.1 hi).1 hi with rfl | rfl
    · exact ⟨'b', by decide, by decide, by decide⟩
    · exact ⟨'d', by decide, by decide, by decide⟩
  obtain ⟨out, out', h, h', hdiag, hroot⟩ := scan_unindented (L := Python.language) (o := {}) rfl
    (show Options.validate { indentWidth := 1, allowTabs := false } = .ok () from rfl) ⟨rfl, rfl, rfl, rfl⟩
    (Or.inr (Or.inr ⟨rfl, hopens⟩))
  have hlevels : (scan Python.language {} "a: b\n\tc: d").toOption.map
      (fun out => out.root.flatten.toList.map Leaf.indent) = some [0, 0, 0, 1, 1, 1] := by
    decide +kernel
  have hnone : (scan Python.language { indentWidth := 1, allowTabs := false } "a: b\n\tc: d").toOption.map
      (fun out => out.root.flatten.toList.map Leaf.indent) = some [0, 0, 0, 0, 0, 0] := by
    decide +kernel
  rw [h] at hlevels
  rw [h'] at hnone
  exact ⟨hopens, out, out', h, h', Option.some.inj hlevels, Option.some.inj hnone, hdiag, hroot⟩

end LexTree
