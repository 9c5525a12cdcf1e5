import LexTree.Proofs.Bundled
import LexTree.Proofs.Leaves
import LexTree.Proofs.MarkerPositions

/-!
# Output filters

The filters of the options decide which leaves are kept, and nothing else.  A scan under some filters and one that keeps
every leaf pass through the same states, apart from the leaves that have been emitted: every move commutes with deleting
from the history what the filters drop (`step_filtered`, `run_filtered`).  Deleting leaves from a history deletes them
from its tree, in every scope (`Scope.ofEvents_filter`).
-/

namespace LexTree

/-! ### What is kept -/

namespace Options

/-- The options with every leaf included. -/
def unfiltered (o : Options) : Options :=
  { o with includeStrings := true, includeComments := true, includeWhitespace := true, includeNewlines := true }

/-- Whether leaves of rule `other` under a name are included. -/
def includes (o : Options) (name : String) : Bool :=
  if name = SymbolicName.string then o.includeStrings
  else if name = SymbolicName.comment then o.includeComments
  else if name = SymbolicName.whitespace then o.includeWhitespace
  else if name = SymbolicName.newline then o.includeNewlines
  else true

/-- Whether a leaf passes the filters. -/
def keeps (o : Options) (l : Leaf) : Bool := l.rule ≠ .other || o.includes l.name

/-- Whether an event passes the filters. -/
def keepsEvent (o : Options) : Event → Bool
  | .leaf l => o.keeps l
  | _ => true

@[simp] theorem includes_string (o : Options) : o.includes SymbolicName.string = o.includeStrings := rfl

@[simp] theorem includes_comment (o : Options) : o.includes SymbolicName.comment = o.includeComments := rfl

@[simp] theorem includes_whitespace (o : Options) : o.includes SymbolicName.whitespace = o.includeWhitespace := rfl

@[simp] theorem includes_newline (o : Options) : o.includes SymbolicName.newline = o.includeNewlines := rfl

end Options

mutual

/-- A token without the leaves that `keep` drops: nothing is left of such a leaf, a marker always stays. -/
def Token.keeping (keep : Leaf → Bool) : Token → Option Token
  | .leaf l => if keep l then some (.leaf l) else none
  | .marker line indent scope => some (.marker line indent (scope.keeping keep))

/-- A scope without the leaves that `keep` drops, at any depth. -/
def Scope.keeping (keep : Leaf → Bool) : Scope → Scope
  | ⟨label, ⟨tokens⟩, _⟩ =>
    let kept := (Token.keepingList keep tokens).toArray
    ⟨label, kept, Scope.markerPositions kept⟩

/-- A token sequence without the leaves that `keep` drops. -/
def Token.keepingList (keep : Leaf → Bool) : List Token → List Token
  | [] => []
  | t :: ts => (t.keeping keep).toList ++ Token.keepingList keep ts

end

/-- A scan result without the leaves that the filters drop. -/
def Output.filtered (o : Options) (out : Output) : Output := ⟨out.root.keeping o.keeps, out.diagnostics⟩

/-! ### Trees -/

section Trees

variable {keep : Leaf → Bool}

private theorem Token.keepingList_append (ts us : List Token) :
    keepingList keep (ts ++ us) = keepingList keep ts ++ keepingList keep us := by
  induction ts with
  | nil => rfl
  | cons t ts ih => simp only [List.cons_append, keepingList, ih, List.append_assoc]

/-- A token that is appended is kept or not for itself. -/
private theorem Scope.keeping_push (s : Scope) (t : Token) :
    (s.push t).keeping keep = (t.keeping keep).elim (s.keeping keep) (s.keeping keep).push := by
  obtain ⟨label, ⟨tokens⟩, children⟩ := s
  have hpush : ∀ (ts : List Token) (u : Token),
      (⟨label, (ts ++ [u]).toArray, markerPositions (ts ++ [u]).toArray⟩ : Scope) =
        Scope.push ⟨label, ts.toArray, markerPositions ts.toArray⟩ u := by
    intro ts u
    rw [← List.push_toArray, markerPositions_push]
    rfl
  simp only [push, List.push_toArray, Scope.keeping, Token.keepingList_append, Token.keepingList, List.append_nil]
  cases t.keeping keep with
  | none => simp
  | some u => exact hpush _ u

namespace Draft

/-- A draft without the leaves that `keep` drops. -/
def keeping (keep : Leaf → Bool) (d : Draft) : Draft :=
  ⟨d.root.keeping keep, d.nested.map fun p => ⟨p.scope.keeping keep, p.line, p.indent⟩⟩

private theorem keeping_push (d : Draft) (t : Token) :
    (d.push t).keeping keep = (t.keeping keep).elim (d.keeping keep) (d.keeping keep).push := by
  obtain ⟨root, _ | ⟨⟨scope, line, indent⟩, rest⟩⟩ := d
  all_goals
    simp only [push, keeping, Scope.keeping_push, List.map_nil, List.map_cons]
    cases t.keeping keep <;> rfl

private theorem keeping_closeScope (d : Draft) : d.closeScope.keeping keep = (d.keeping keep).closeScope := by
  obtain ⟨root, _ | ⟨⟨scope, line, indent⟩, rest⟩⟩ := d
  · rfl
  · exact keeping_push ..

private theorem keeping_apply (o : Options) (d : Draft) (e : Event) :
    (d.apply e).keeping o.keeps = if o.keepsEvent e then (d.keeping o.keeps).apply e else d.keeping o.keeps := by
  cases e with
  | leaf l =>
    rw [apply, keeping_push, Options.keepsEvent, Token.keeping]
    split <;> rfl
  | opened line indent => rfl
  | closed => exact keeping_closeScope d

private theorem keeping_foldl (o : Options) (d : Draft) (es : List Event) :
    (es.foldl apply d).keeping o.keeps = (es.filter o.keepsEvent).foldl apply (d.keeping o.keeps) := by
  induction es generalizing d with
  | nil => rfl
  | cons e es ih =>
    rw [List.foldl_cons, ih, keeping_apply, List.filter_cons]
    split <;> rfl

private theorem keeping_closeWith (root scope : Scope) (line indent : UInt32) (nested : List OpenScope) :
    (closeWith root (.marker line indent scope) nested).keeping keep =
      closeWith (root.keeping keep) (.marker line indent (scope.keeping keep))
        (nested.map fun p => ⟨p.scope.keeping keep, p.line, p.indent⟩) := by
  -- what is pushed is always a marker, so it is never dropped
  induction nested generalizing scope line indent with
  | nil =>
    rw [closeWith, Scope.keeping_push]
    rfl
  | cons p rest ih =>
    rw [closeWith, ih, Scope.keeping_push]
    rfl

private theorem keeping_finish (d : Draft) : d.finish.keeping keep = (d.keeping keep).finish := by
  obtain ⟨root, _ | ⟨⟨scope, line, indent⟩, rest⟩⟩ := d
  · rfl
  · exact keeping_closeWith ..

end Draft

/-- Deleting leaves from a history deletes them from its tree. -/
theorem Scope.ofEvents_filter (o : Options) (events : Array Event) :
    Scope.ofEvents (events.filter o.keepsEvent) = (Scope.ofEvents events).keeping o.keeps := by
  rw [ofEvents, ofEvents, Draft.keeping_finish, Draft.ofEvents, Draft.ofEvents, ← Array.foldl_toList,
    ← Array.foldl_toList, Draft.keeping_foldl, Array.toList_filter]
  rfl

end Trees

/-! ### Measures and quiet steps -/

private theorem Options.measureFrom_unfiltered (o : Options) (levels spaces : UInt32) (run : List Char) :
    o.unfiltered.measureFrom levels spaces run = o.measureFrom levels spaces run := by
  fun_induction measureFrom o levels spaces run with
  | case1 levels spaces => rfl
  | case2 levels spaces rest h ih => rw [measureFrom, if_pos (show _ = max o.unfiltered.indentWidth 1 from h), ih]
  | case3 levels spaces rest h ih => rw [measureFrom, if_neg (show ¬ _ = max o.unfiltered.indentWidth 1 from h), ih]
  | case4 levels spaces rest ih =>
    rw [measureFrom]
    exact ih
  | case5 levels spaces c rest hspace htab ih =>
    rw [measureFrom]
    · exact ih
    · exact hspace
    · exact htab

@[simp] theorem Options.measureIndent_unfiltered (o : Options) (run : List Char) :
    o.unfiltered.measureIndent run = o.measureIndent run := measureFrom_unfiltered o 0 0 run

namespace Cursor

@[simp] theorem advance_unfiltered (o : Options) (c : Cursor) : c.advance o.unfiltered = c.advance o := by
  simp only [advance, Options.measureIndent_unfiltered]

@[simp] theorem stepQuiet_unfiltered (o : Options) (c : Cursor) : c.stepQuiet o.unfiltered = c.stepQuiet o := by
  fun_induction stepQuiet o c with
  | case1 c next h ih =>
    rw [stepQuiet, advance_unfiltered, dif_pos h, ih]
  | case2 c next h => rw [stepQuiet, advance_unfiltered, dif_neg h]

@[simp] theorem stepsQuiet_unfiltered (o : Options) (n : Nat) (c : Cursor) :
    c.stepsQuiet o.unfiltered n = c.stepsQuiet o n := by
  induction n generalizing c with
  | zero => rfl
  | succ n ih => rw [stepsQuiet, stepsQuiet, stepQuiet_unfiltered, ih]

end Cursor

@[simp] theorem readBody_unfiltered (o : Options) (ends : Predicate) (c : Cursor) (line : UInt32) (text : String)
    (n : Notes) : readBody o.unfiltered ends c line text n = readBody o ends c line text n := by
  fun_induction readBody o ends c line text n with
  | case1 c line text n e n₁ h => rw [readBody, h]
  | case2 c line text n n₁ h => rw [readBody, h]
  | case3 c line text n n₁ h hc =>
    rw [readBody, h]
    simp only
    split
    · rfl
    · rename_i ch hch
      rw [hc] at hch
      cases hch
  | case4 c line text n n₁ h ch hc text' ih =>
    rw [readBody, h]
    simp only
    split
    · rename_i hch
      rw [hc] at hch
      cases hch
    · rename_i ch' hch
      rw [hc] at hch
      cases hch
      rw [Cursor.stepQuiet_unfiltered]
      exact ih

/-! ### Scope delimiters -/

/-- The texts of leaves that are named for what they are in every language. -/
def layoutTexts : List String := [" ", "\t", "\r", "\n"]

/-- No delimiter of a scope is a lone blank or newline. -/
structure Language.VisibleDelimiters (L : Language) : Prop where
  opening : ∀ c n n', L.dispatch c n = .ok (some .scopeStart) n' → n'.startMarker ∉ layoutTexts
  closing : ∀ c n n', L.dispatch c n = .ok (some .scopeEnd) n' → n'.endMarker ∉ layoutTexts

private theorem classifySymbol_of_not_layout (symbols : SymbolTable) {text : String} (h : text ∉ layoutTexts) :
    (classifySymbol symbols text).1 = .symbol := by
  unfold classifySymbol
  simp only
  split
  · rename_i c hc
    have htext : text = String.singleton c := String.toList_inj.1 (by rw [hc, String.toList_singleton])
    have hn : c ≠ '\n' := by
      rintro rfl
      exact h (by rw [htext]; decide)
    have hb : isBlank c = false := by
      rw [Bool.eq_false_iff]
      intro hb
      simp only [isBlank, Bool.or_eq_true, decide_eq_true_eq] at hb
      rcases hb with (rfl | rfl) | rfl <;> exact h (by rw [htext]; decide)
    rw [if_neg hn, if_neg (by simp [hb])]
  · rfl

private theorem classifyDelimiter_of_not_layout (keywords : KeywordTable) (symbols : SymbolTable) {text : String}
    (h : text ∉ layoutTexts) : (classifyDelimiter keywords symbols text).1 ≠ .other := by
  unfold classifyDelimiter
  split
  · simp [classifyWord]
  · simp [classifySymbol_of_not_layout symbols h]

private theorem Java.visibleDelimiters : language.VisibleDelimiters := by
  constructor
  all_goals
    intro c n n' h
    rcases dispatch_cases c n with ⟨quote, -, -, hd⟩ | ⟨-, hd⟩ | ⟨-, hd⟩ | ⟨-, hd⟩ | ⟨-, hd⟩ | ⟨-, -, hd⟩
    all_goals
      rw [h] at hd
      cases hd
  · show "\x7b" ∉ layoutTexts
    decide
  · show "\x7d" ∉ layoutTexts
    decide

private theorem Python.visibleDelimiters : language.VisibleDelimiters := by
  constructor
  all_goals
    intro c n n' h
    rcases dispatch_cases c n with ⟨quote, -, -, hd⟩ | ⟨-, hd⟩ | ⟨-, -, hd⟩ | ⟨frame, frames, -, -, hd⟩ | ⟨-, -, hd⟩
    all_goals
      rw [h] at hd
      cases hd
  · show ":" ∉ layoutTexts
    decide
  · show "" ∉ layoutTexts
    decide

private theorem Dull.visibleDelimiters : language.VisibleDelimiters := by
  constructor
  all_goals
    intro c n n' h
    rw [dispatch_eq] at h
    cases h

/-! ### Moves -/

namespace State

variable {L : Language} {o : Options}

/-- The state without the leaves that the filters drop. -/
def filtered (o : Options) (s : State) : State := { s with events := s.events.filter o.keepsEvent }

/-- What a move that may fail leads to, without the leaves that the filters drop. -/
def filteredResult {α : Type} (o : Options) : EStateM.Result ScratchError State α → EStateM.Result ScratchError State α
  | .ok a s => .ok a (s.filtered o)
  | .error e s => .error e (s.filtered o)

private theorem filtered_push (s : State) (l : Leaf) :
    filtered o { s with events := s.events.push (.leaf l) } =
      if o.keeps l then { s.filtered o with events := (s.filtered o).events.push (.leaf l) } else s.filtered o := by
  simp only [filtered]
  split
  · rename_i h
    rw [Array.filter_push_of_pos (show o.keepsEvent (.leaf l) = true from h) (by simp)]
  · rename_i h
    rw [Array.filter_push_of_neg (show ¬ o.keepsEvent (.leaf l) = true from h) (by simp)]

private theorem filtered_emit_other (s : State) (name text : String) :
    (s.emit .other name text).filtered o =
      if o.includes name then (s.filtered o).emit .other name text else s.filtered o :=
  filtered_push s ⟨s.cursor.line, s.cursor.indent, .other, name, text⟩

private theorem filtered_emit (s : State) {rule : Rule} (h : rule ≠ .other) (name text : String) :
    (s.emit rule name text).filtered o = (s.filtered o).emit rule name text := by
  have hkeeps : o.keeps ⟨s.cursor.line, s.cursor.indent, rule, name, text⟩ = true := by simp [Options.keeps, h]
  exact (filtered_push s _).trans (if_pos hkeeps)

private theorem flush_filtered (s : State) : (s.filtered o).flush L = (s.flush L).filtered o := by
  unfold flush
  rw [show (s.filtered o).word = s.word from rfl]
  split
  · rfl
  · have hkeyword : (classifyWord L.keywords s.word).1 ≠ .other := by simp [classifyWord]
    have hemit := filtered_emit (o := o) s hkeyword (classifyWord L.keywords s.word).2 s.word
    exact congrArg (fun t : State => { t with word := "" }) hemit.symm

private theorem crossedLeaves_filtered (s : State) :
    ((s.crossedLeaves o.unfiltered).map Event.leaf).toArray.filter o.keepsEvent =
      ((s.crossedLeaves o).map Event.leaf).toArray := by
  simp only [crossedLeaves, Options.measureIndent_unfiltered]
  generalize s.cursor.blankRun (s.cursor.index + 1) = run
  cases hn : o.includeNewlines <;> cases hw : o.includeWhitespace <;> cases hr : run.isEmpty <;>
    simp [Options.unfiltered, Options.keepsEvent, Options.keeps, hn, hw]

private theorem crossNewline_filtered (s : State) :
    (s.filtered o).crossNewline o = (s.crossNewline o.unfiltered).filtered o := by
  have hcursor : ((s.filtered o).crossNewline o).cursor = (s.crossNewline o.unfiltered).cursor := by
    rw [cursor_crossNewline, cursor_crossNewline, Options.measureIndent_unfiltered]
    rfl
  rw [crossNewline_eq, hcursor, crossNewline_eq s]
  simp only [filtered]
  rw [Array.filter_append (by simp), crossedLeaves_filtered]
  rfl

private theorem newline_filtered (s : State) : (s.filtered o).newline o = (s.newline o.unfiltered).filtered o := by
  fun_induction newline s o.unfiltered with
  | case1 s next h ih =>
    rw [newline, crossNewline_filtered, dif_pos (show (next.filtered o).cursor.peek? 1 = some '\n' from h)]
    exact ih
  | case2 s next h =>
    rw [newline, crossNewline_filtered, dif_neg (show ¬ (next.filtered o).cursor.peek? 1 = some '\n' from h)]

private theorem plain_filtered (s : State) : (s.filtered o).plain L o = (s.plain L o.unfiltered).filtered o := by
  unfold plain
  rw [show (s.filtered o).cursor = s.cursor from rfl]
  split
  · rfl
  · rename_i c hc
    split
    · rfl
    · simp only
      rw [flush_filtered]
      split
      · exact newline_filtered _
      · rename_i hn
        -- a blank is emitted and then dropped, or not emitted at all
        rw [classifySymbol_singleton L hn]
        cases hb : isBlank c with
        | true =>
          have hemit := filtered_emit_other (o := o) (s.flush L) SymbolicName.whitespace (String.singleton c)
          cases hw : o.includeWhitespace <;> simp_all [Options.unfiltered]
        | false =>
          have hemit := filtered_emit (o := o) (s.flush L) (show Rule.symbol ≠ .other by decide)
            (L.symbolName c) (String.singleton c)
          simp [hemit]

private theorem delimiter_filtered (s : State) {text : String} (h : text ∉ layoutTexts) :
    (s.filtered o).delimiter L text = (s.delimiter L text).filtered o := by
  unfold delimiter
  split
  · rfl
  · exact (filtered_emit s (classifyDelimiter_of_not_layout L.keywords L.symbols h) _ _).symm

private theorem openScope_filtered (s : State) : (s.filtered o).openScope = s.openScope.filtered o := by
  simp only [openScope, filtered]
  rw [Array.filter_push_of_pos (by rfl) (by simp)]

private theorem closeScope_filtered (s : State) : (s.filtered o).closeScope = s.closeScope.filtered o := by
  unfold closeScope
  rw [show (s.filtered o).cursor = s.cursor from rfl]
  split
  · rfl
  · simp only [filtered]
    rw [Array.filter_push_of_pos (by rfl) (by simp)]

private theorem skipRest_filtered (s : State) (length : Nat) :
    (s.filtered o).skipRest o length = (s.skipRest o.unfiltered length).filtered o := by
  unfold skipRest
  rw [Cursor.stepsQuiet_unfiltered, show (s.filtered o).notes = s.notes from rfl]
  split <;> rfl

private theorem verbatim_filtered (s : State) (ends : Predicate) (name : String) :
    (s.filtered o).verbatim o ends name = filteredResult o (s.verbatim o.unfiltered ends name) := by
  unfold verbatim
  simp only [Cursor.stepsQuiet_unfiltered, readBody_unfiltered, show (s.filtered o).notes = s.notes from rfl,
    show (s.filtered o).cursor = s.cursor from rfl]
  split
  · rfl
  · split
    · rw [filteredResult, apply_ite (filtered o)]
      rfl
    · rw [filteredResult, apply_ite (filtered o)]
      rfl

private theorem construct_filtered (s : State) (ends : Predicate) (name : String) :
    (s.filtered o).construct o ends name (o.includes name) =
      filteredResult o (s.construct o.unfiltered ends name true) := by
  unfold construct
  rw [verbatim_filtered]
  cases hv : s.verbatim o.unfiltered ends name with
  | error e s₁ => rfl
  | ok leaf s₁ =>
    have hkeeps : o.keeps leaf = o.includes name := by
      rw [leaf_verbatim hv]
      simp [Options.keeps]
    have hpush := filtered_push (o := o) s₁ leaf
    rw [hkeeps] at hpush
    simp only [filteredResult, if_true]
    rw [← hpush, ← skipRest_filtered]
    rfl

private theorem boundary_filtered (hL : L.VisibleDelimiters) {s : State} {b : Boundary} {c : Cursor} {n : Notes}
    (found : L.dispatch c n = .ok (some b) s.notes) :
    (s.filtered o).boundary L o b = filteredResult o (s.boundary L o.unfiltered b) := by
  cases b with
  | stringStart => exact construct_filtered s _ SymbolicName.string
  | commentStart => exact construct_filtered s _ SymbolicName.comment
  | scopeStart =>
    have hmarker : s.notes.startMarker ∉ layoutTexts := hL.opening c n _ found
    simp only [boundary, filteredResult, show (s.filtered o).notes = s.notes from rfl]
    rw [delimiter_filtered s hmarker, openScope_filtered, skipRest_filtered]
  | scopeEnd =>
    have hmarker : s.notes.endMarker ∉ layoutTexts := hL.closing c n _ found
    simp only [boundary, filteredResult, show (s.filtered o).notes = s.notes from rfl]
    rw [closeScope_filtered, delimiter_filtered _ hmarker, skipRest_filtered]

private theorem settle_filtered (before : Cursor) (s : State) :
    settle before (s.filtered o) = (settle before s).filtered o := by
  unfold settle
  rw [show (s.filtered o).notes = s.notes from rfl, show (s.filtered o).cursor = s.cursor from rfl]
  split
  · split <;> rfl
  · rfl

/-! ### Runs -/

/-- A step under the filters is a step that keeps every leaf, less what the filters drop. -/
theorem step_filtered (hL : L.VisibleDelimiters) (s : State) :
    (s.filtered o).step L o = filteredResult o (s.step L o.unfiltered) := by
  have hsame : L.dispatch (s.filtered o).cursor (s.filtered o).notes.fresh = L.dispatch s.cursor s.notes.fresh := rfl
  cases hd : L.dispatch s.cursor s.notes.fresh with
  | error e n =>
    rw [step, step, hsame, hd]
    rfl
  | ok b n =>
    cases b with
    | none =>
      rw [step_eq_of_none (s := s.filtered o) hd, step_eq_of_none hd, filteredResult, ← settle_filtered,
        ← plain_filtered]
      rfl
    | some b =>
      have hb : boundary (flush { s.filtered o with notes := n } L) L o b =
          filteredResult o (boundary (flush { s with notes := n } L) L o.unfiltered b) := by
        rw [← boundary_filtered hL (by rw [notes_flush]; exact hd), ← flush_filtered]
        rfl
      rw [step_of_found (s := s.filtered o) hd, step_of_found hd, hb]
      cases boundary (flush { s with notes := n } L) L o.unfiltered b with
      | error e s₁ => rfl
      | ok u s₁ =>
        simp only [filteredResult]
        rw [← settle_filtered]
        rfl

theorem run_filtered (hL : L.VisibleDelimiters) (s : State) :
    (s.filtered o).run L o = filteredResult o (s.run L o.unfiltered) := by
  fun_induction run s L o.unfiltered with
  | case1 s hs s' h ih =>
    have hstep : (s.filtered o).step L o = .ok () (s'.filtered o) := by rw [step_filtered hL, h]; rfl
    rw [(Runs.step (s := s.filtered o) hs hstep (.done _)).run_eq, ih]
  | case2 s hs e s' h =>
    have hstep : (s.filtered o).step L o = .error e (s'.filtered o) := by rw [step_filtered hL, h]; rfl
    rw [run, dif_pos (show (s.filtered o).cursor.index < (s.filtered o).cursor.text.size from hs)]
    split
    · rename_i h'
      rw [hstep] at h'
      cases h'
    · rename_i h'
      rw [hstep] at h'
      cases h'
      rfl
  | case3 s hs => rw [run_of_not_inside (s := s.filtered o) hs]; rfl

private theorem finish_filtered (s : State) : (s.filtered o).finish L = (s.finish L).filtered o := by
  have hroot : (s.filtered o).finish L = ⟨.ofEvents ((s.flush L).filtered o).events, (s.flush L).diagnostics⟩ := by
    rw [finish, flush_filtered]
    rfl
  rw [hroot, Output.filtered, finish]
  simp only [filtered]
  rw [Scope.ofEvents_filter]

end State

open State in
/-- The filters only filter.  Under any options a scan fails where the scan that keeps every leaf fails, with the same
error; otherwise it reports the same problems, and its tree is that of the other scan less the strings, comments, blanks
and newlines that are not included, deleted in every scope.  This holds of every language whose scope delimiters are
visible, as those of the bundled languages are. -/
theorem scan_eq_filtered (o : Options) (text : String) :
    (∀ L : Language, L.VisibleDelimiters → scan L o text = (scan L o.unfiltered text).map (Output.filtered o)) ∧
      ∀ L ∈ Bundled.languages, L.VisibleDelimiters := by
  refine ⟨?_, ?_⟩
  · intro L hL
    have hrun := run_filtered (o := o) hL (start text)
    rw [show (start text).filtered o = start text from rfl] at hrun
    unfold scan
    cases L.validate with
    | error e => rfl
    | ok u =>
      rw [show o.unfiltered.validate = o.validate from rfl]
      cases o.validate with
      | error e => rfl
      | ok u =>
        simp only [bind, Except.bind]
        rw [hrun]
        cases (start text).run L o.unfiltered with
        | error e t => rfl
        | ok u t => exact congrArg Except.ok (finish_filtered t)
  · intro L hL
    simp only [Bundled.languages, List.mem_cons, List.not_mem_nil, or_false] at hL
    rcases hL with rfl | rfl | rfl
    · exact Java.visibleDelimiters
    · exact Python.visibleDelimiters
    · exact Dull.visibleDelimiters

/-- A block that holds nothing but a string stays, without tokens. -/
theorem scan_eq_filtered_python :
    Python.language.VisibleDelimiters ∧
      ∃ out,
        scan Python.language { includeWhitespace := true, includeNewlines := true } "if a:\n    'doc'\nb" = .ok out ∧
        scan Python.language { includeStrings := false } "if a:\n    'doc'\nb" =
          .ok (out.filtered { includeStrings := false }) ∧
        out.root.flatten.toList.map Leaf.text = ["if", " ", "a", ":", "\n", "    ", "'doc'", "\n", "b"] ∧
        (out.filtered { includeStrings := false }).root.walk.toList.map (fun e => e.leaf?.map Leaf.text) =
          [some "if", some "a", some ":", none, some "b"] := by
  obtain ⟨hfilter, hvisible⟩ := scan_eq_filtered { includeStrings := false } "if a:\n    'doc'\nb"
  have hL := hvisible Python.language (by simp [Bundled.languages])
  have hscan := hfilter Python.language hL
  rw [show Options.unfiltered { includeStrings := false } = { includeWhitespace := true, includeNewlines := true } from
    rfl] at hscan
  have hall : (scan Python.language { includeWhitespace := true, includeNewlines := true }
      "if a:\n    'doc'\nb").toOption.map (fun out => out.root.flatten.toList.map Leaf.text) =
      some ["if", " ", "a", ":", "\n", "    ", "'doc'", "\n", "b"] := by
    decide +kernel
  have hkept : (scan Python.language { includeStrings := false } "if a:\n    'doc'\nb").toOption.map
      (fun out => out.root.walk.toList.map fun e => e.leaf?.map Leaf.text) =
      some [some "if", some "a", some ":", none, some "b"] := by
    decide +kernel
  rw [hscan] at hkept
  cases hout : scan Python.language { includeWhitespace := true, includeNewlines := true } "if a:\n    'doc'\nb" with
  | error e =>
    rw [hout] at hall
    cases hall
  | ok out =>
    rw [hout] at hscan hall hkept
    exact ⟨hL, out, rfl, hscan, Option.some.inj hall, Option.some.inj hkept⟩

end LexTree
