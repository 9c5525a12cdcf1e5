import LexTree.Proofs.Verbatim

/-!
# What the leaves of a step are

A step emits the word gathered so far and then what it found under the cursor.  `Emits` has one constructor for each
kind of step and says which events it adds to the history and which problems it reports; `emits_step` says that nothing
else happens.  Every leaf but those of newlines and of the blanks after them carries the line and indent of the cursor.
-/

namespace LexTree

/-- Newlines and blanks. -/
def Leaf.isLayout (l : Leaf) : Bool :=
  l.rule = .other && (l.name = SymbolicName.whitespace || l.name = SymbolicName.newline)

/-- The name of a character that stands for itself. -/
def Language.symbolName (L : Language) (c : Char) : String :=
  (L.symbols.label? (String.singleton c)).getD SymbolicName.unknown

namespace Boundary

/-- Strings and comments are read in one go. -/
def isConstruct : Boundary → Bool
  | stringStart | commentStart => true
  | scopeStart | scopeEnd => false

/-- The edge at which what opens here closes. -/
def closing : Boundary → Edge
  | stringStart => .closes .string
  | commentStart => .closes .comment
  | scopeStart | scopeEnd => .closes .scope

def leafName : Boundary → String
  | commentStart => SymbolicName.comment
  | _ => SymbolicName.string

/-- Whether the leaf of a string or comment is kept. -/
def included (o : Options) : Boundary → Bool
  | stringStart => o.includeStrings
  | commentStart => o.includeComments
  | scopeStart | scopeEnd => true

end Boundary

namespace State

variable {L : Language} {o : Options} {s s' : State}

/-- The leaf of the gathered word, if there is one. -/
def wordLeaves (s : State) (L : Language) : List Leaf :=
  if s.word.isEmpty then []
  else [⟨s.cursor.line, s.cursor.indent, .keyword, (classifyWord L.keywords s.word).2, s.word⟩]

/-- The leaf of a scope delimiter, if it is not empty. -/
def delimiterLeaves (s : State) (L : Language) (text : String) : List Leaf :=
  if text.isEmpty then []
  else
    let (rule, name) := classifyDelimiter L.keywords L.symbols text
    [⟨s.cursor.line, s.cursor.indent, rule, name, text⟩]

/-- The leaf of a string or comment. -/
def constructLeaf (s : State) (b : Boundary) (text : String) : Leaf :=
  ⟨s.cursor.line, s.cursor.indent, .other, b.leafName, text⟩

/-- The leaf of a symbol under the cursor. -/
def symbolLeaf (s : State) (name text : String) : Leaf := ⟨s.cursor.line, s.cursor.indent, .symbol, name, text⟩

/-- A leaf that a plain character can lead to. -/
inductive PlainLeaf (L : Language) (s : State) : Leaf → Prop
  | word {l : Leaf} (h : l ∈ s.wordLeaves L) : PlainLeaf L s l
  | layout {l : Leaf} (h : l.isLayout = true) : PlainLeaf L s l
  | symbol {c : Char} (here : s.cursor.current? = some c) (line : c ≠ '\n') (blank : isBlank c = false)
      (name : String) : PlainLeaf L s (s.symbolLeaf name (String.singleton c))

/-- The events and the problems of the step that begins here. -/
inductive Emits (L : Language) (o : Options) (s : State) : List Event → List Diagnostic → Prop
  | plain {n : Notes} {leaves : List Leaf} (found : L.dispatch s.cursor s.notes.fresh = .ok none n)
      (each : ∀ l ∈ leaves, s.PlainLeaf L l) : Emits L o s (leaves.map .leaf) []
  | construct {b : Boundary} {n : Notes} {problems : List Diagnostic}
      (found : L.dispatch s.cursor s.notes.fresh = .ok (some b) n) (hb : b.isConstruct = true) (text : String)
      (cut : ∀ d ∈ problems, d.problem = .unterminated b.leafName) :
      Emits L o s ((s.wordLeaves L ++ if b.included o then [s.constructLeaf b text] else []).map .leaf) problems
  | opened {n : Notes} (found : L.dispatch s.cursor s.notes.fresh = .ok (some .scopeStart) n) :
      Emits L o s ((s.wordLeaves L ++ s.delimiterLeaves L n.startMarker).map .leaf ++
        [.opened s.cursor.line s.cursor.indent]) []
  | closed {n : Notes} (found : L.dispatch s.cursor s.notes.fresh = .ok (some .scopeEnd) n)
      (inner : s.cursor.depth ≠ 0) :
      Emits L o s ((s.wordLeaves L).map .leaf ++ .closed :: (s.delimiterLeaves L n.endMarker).map .leaf) []
  | stray {n : Notes} (found : L.dispatch s.cursor s.notes.fresh = .ok (some .scopeEnd) n)
      (outer : s.cursor.depth = 0) :
      Emits L o s ((s.wordLeaves L ++ s.delimiterLeaves L n.endMarker).map .leaf)
        [⟨.unbalancedScope, s.cursor.line, s.cursor.index⟩]

/-! ### Words and delimiters -/

theorem events_flush (s : State) (L : Language) :
    (s.flush L).events.toList = s.events.toList ++ (s.wordLeaves L).map .leaf := by
  unfold flush wordLeaves
  split
  · simp
  · simp [emit, classifyWord]

private theorem events_delimiter (s : State) (L : Language) (text : String) :
    (s.delimiter L text).events.toList = s.events.toList ++ (s.delimiterLeaves L text).map .leaf := by
  unfold delimiter delimiterLeaves
  split
  · simp
  · simp [emit]

@[simp] theorem diagnostics_delimiter (s : State) (L : Language) (text : String) :
    (s.delimiter L text).diagnostics = s.diagnostics := by
  unfold delimiter
  split <;> rfl

@[simp] theorem diagnostics_settle (before : Cursor) (after : State) :
    (settle before after).diagnostics = after.diagnostics := by
  obtain ⟨h, -⟩ | ⟨h, -⟩ := settle_cases before after <;> rw [h]
  rfl

/-! ### Plain characters -/

private theorem isLayout_of_mem_crossedLeaves {l : Leaf} (h : l ∈ s.crossedLeaves o) : l.isLayout = true := by
  unfold crossedLeaves at h
  rcases List.mem_append.1 h with h | h
  all_goals
    split at h
    · rw [List.mem_singleton.1 h]
      rfl
    · cases h

theorem events_newline (s : State) (o : Options) :
    ∃ leaves : List Leaf, (s.newline o).events.toList = s.events.toList ++ leaves.map .leaf ∧
      ∀ l ∈ leaves, l.isLayout = true := by
  fun_induction newline s o with
  | case1 s next hp ih =>
    obtain ⟨leaves, he, hl⟩ := ih
    refine ⟨s.crossedLeaves o ++ leaves, ?_, ?_⟩
    · rw [he, events_crossNewline, List.map_append, List.append_assoc]
    · intro l hmem
      rcases List.mem_append.1 hmem with hmem | hmem
      · exact isLayout_of_mem_crossedLeaves hmem
      · exact hl l hmem
  | case2 s next hp => exact ⟨s.crossedLeaves o, events_crossNewline s o, fun l => isLayout_of_mem_crossedLeaves⟩

theorem classifySymbol_singleton (L : Language) {c : Char} (hn : c ≠ '\n') :
    classifySymbol L.symbols (String.singleton c) =
      if isBlank c then (.other, SymbolicName.whitespace) else (.symbol, L.symbolName c) := by
  simp [classifySymbol, Language.symbolName, hn]

/-- The leaf of a character that stands for itself. -/
private theorem plainLeaf_symbol {c : Char} (hc : s.cursor.current? = some c) (hn : c ≠ '\n') :
    s.PlainLeaf L ⟨s.cursor.line, s.cursor.indent, (classifySymbol L.symbols (String.singleton c)).1,
      (classifySymbol L.symbols (String.singleton c)).2, String.singleton c⟩ := by
  rw [classifySymbol_singleton L hn]
  by_cases hb : isBlank c = true
  · rw [if_pos hb]
    exact .layout rfl
  · rw [if_neg hb]
    exact .symbol hc hn (by simpa using hb) (L.symbolName c)

private theorem events_plain (s : State) (L : Language) (o : Options) :
    ∃ leaves : List Leaf, (s.plain L o).events.toList = s.events.toList ++ leaves.map .leaf ∧
      ∀ l ∈ leaves, s.PlainLeaf L l := by
  have hword : ∀ l ∈ s.wordLeaves L, s.PlainLeaf L l := fun l hl => .word hl
  unfold plain
  split
  · exact ⟨[], by simp, by simp⟩
  · rename_i c hc
    split
    · exact ⟨[], by simp, by simp⟩
    · simp only
      split
      · -- the word comes before the newlines
        obtain ⟨leaves, he, hl⟩ := events_newline (s.flush L) o
        refine ⟨s.wordLeaves L ++ leaves, ?_, ?_⟩
        · rw [he, events_flush, List.map_append, List.append_assoc]
        · intro l hmem
          rcases List.mem_append.1 hmem with hmem | hmem
          · exact hword l hmem
          · exact .layout (hl l hmem)
      · rename_i hn
        split
        · exact ⟨s.wordLeaves L, events_flush s L, hword⟩
        · refine ⟨s.wordLeaves L ++ [⟨s.cursor.line, s.cursor.indent,
            (classifySymbol L.symbols (String.singleton c)).1, (classifySymbol L.symbols (String.singleton c)).2,
            String.singleton c⟩], ?_, ?_⟩
          · simp [emit, events_flush]
          · intro l hmem
            rcases List.mem_append.1 hmem with hmem | hmem
            · exact hword l hmem
            · rw [List.mem_singleton.1 hmem]
              exact plainLeaf_symbol hc hn

theorem word_plain {ch : Char} (h : s.cursor.current? = some ch) :
    (s.plain L o).word = if L.isWordChar ch then s.word.push ch else "" := by
  simp only [plain, h]
  split
  · rfl
  · split
    · rw [(frame_newline ..).2.1, word_flush]
    · split
      · exact word_flush s L
      · exact word_flush s L

/-- A delimiter that is no keyword is a symbol. -/
theorem delimiterLeaves_singleton {c : Char} (hk : L.keywords.contains (String.singleton c) = false) (hn : c ≠ '\n')
    (hb : isBlank c = false) (s : State) :
    s.delimiterLeaves L (String.singleton c) = [s.symbolLeaf (L.symbolName c) (String.singleton c)] := by
  rw [delimiterLeaves, if_neg (by simp), classifyDelimiter, if_neg (by simp [hk]), classifySymbol_singleton L hn, hb]
  rfl

/-! ### Boundaries -/

theorem boundary_construct {b : Boundary} (hb : b.isConstruct = true) :
    s.boundary L o b = s.construct o (L.predicate b.closing) b.leafName (b.included o) := by
  cases b with
  | stringStart | commentStart => rfl
  | scopeStart | scopeEnd => cases hb

theorem leaf_verbatim {ends : Predicate} {name : String} {leaf : Leaf} (h : s.verbatim o ends name = .ok leaf s') :
    leaf = ⟨s.cursor.line, s.cursor.indent, .other, name, leaf.text⟩ := by
  unfold verbatim at h
  simp only at h
  split at h
  · cases h
  · split at h
    all_goals
      injection h with hl _
      rw [← hl]

private theorem diagnostics_verbatim {ends : Predicate} {name : String} {leaf : Leaf}
    (h : s.verbatim o ends name = .ok leaf s') :
    ∃ problems : List Diagnostic, s'.diagnostics.toList = s.diagnostics.toList ++ problems ∧
      ∀ d ∈ problems, d.problem = .unterminated name := by
  obtain ⟨body, notes, -, -, -, ⟨-, -, rfl⟩ | ⟨-, -, rfl⟩⟩ := verbatim_cases h
  · exact ⟨[], by simp, by simp⟩
  · split
    · exact ⟨[⟨.unterminated name, s.cursor.line, body.cursor.index⟩], by simp [report], by simp⟩
    · exact ⟨[], by simp, by simp⟩

theorem events_kept {ends : Predicate} {name : String} {leaf : Leaf} {s₁ : State}
    (h : s.verbatim o ends name = .ok leaf s₁) (included : Bool) (length : Nat) :
    (skipRest (if included then { s₁ with events := s₁.events.push (.leaf leaf) } else s₁) o length).events.toList =
      s.events.toList ++ (if included then [leaf] else []).map .leaf := by
  rw [events_skipRest, ← events_verbatim h]
  split <;> simp

private theorem events_construct {ends : Predicate} {name : String} {included : Bool}
    (h : s.construct o ends name included = .ok () s') :
    ∃ (text : String) (problems : List Diagnostic),
      s'.events.toList = s.events.toList ++
        (if included then [⟨s.cursor.line, s.cursor.indent, .other, name, text⟩] else []).map .leaf ∧
      s'.diagnostics.toList = s.diagnostics.toList ++ problems ∧ ∀ d ∈ problems, d.problem = .unterminated name := by
  obtain ⟨leaf, s₁, hv, rfl⟩ := construct_cases h
  obtain ⟨problems, hp, hcut⟩ := diagnostics_verbatim hv
  refine ⟨leaf.text, problems, ?_, ?_, hcut⟩
  · rw [events_kept hv, ← leaf_verbatim hv]
  · rw [diagnostics_skipRest, ← hp]
    split <;> rfl

theorem diagnostics_closeScope (s : State) :
    s.closeScope.diagnostics.toList = s.diagnostics.toList ++
      if s.cursor.depth = 0 then [⟨.unbalancedScope, s.cursor.line, s.cursor.index⟩] else [] := by
  unfold closeScope
  split
  · rename_i hd
    simp [hd, report]
  · rename_i hd
    simp [hd]

/-! ### The step -/

private theorem delimiterLeaves_flush (s : State) (n : Notes) (L : Language) (text : String) :
    (flush { s with notes := n } L).delimiterLeaves L text = s.delimiterLeaves L text := by
  simp [delimiterLeaves]

private theorem delimiterLeaves_closeScope (s : State) (L : Language) (text : String) :
    s.closeScope.delimiterLeaves L text = s.delimiterLeaves L text := by
  simp [delimiterLeaves, cursor_closeScope]

/-- What a step emits and reports. -/
theorem emits_step (h : s.step L o = .ok () s') :
    ∃ new problems, s.Emits L o new problems ∧ s'.events.toList = s.events.toList ++ new ∧
      s'.diagnostics.toList = s.diagnostics.toList ++ problems := by
  obtain ⟨n, hd, rfl⟩ | ⟨b, n, s₁, hd, hb, rfl⟩ := step_cases h
  · obtain ⟨leaves, he, hl⟩ := events_plain { s with notes := n } L o
    have each : ∀ l ∈ leaves, s.PlainLeaf L l := by
      intro l hmem
      cases hl l hmem with
      | word h => exact .word h
      | layout h => exact .layout h
      | symbol here line blank name => exact .symbol (s := s) here line blank name
    refine ⟨_, _, .plain hd each, ?_, ?_⟩
    · rw [events_settle, he]
    · rw [diagnostics_settle, (frame_plain ..).2, List.append_nil]
  -- the word is flushed before the boundary is handled
  have hword : (flush { s with notes := n } L).events.toList = s.events.toList ++ (s.wordLeaves L).map .leaf :=
    events_flush { s with notes := n } L
  have hcur : (flush { s with notes := n } L).cursor = s.cursor := cursor_flush ..
  have hnotes : (flush { s with notes := n } L).notes = n := notes_flush ..
  have hdiag : (flush { s with notes := n } L).diagnostics = s.diagnostics := diagnostics_flush ..
  by_cases hc : b.isConstruct = true
  · rw [boundary_construct hc] at hb
    obtain ⟨text, problems, he, hp, hcut⟩ := events_construct hb
    refine ⟨_, problems, .construct hd hc text hcut, ?_, ?_⟩
    · rw [events_settle, he, hword, hcur, List.map_append, List.append_assoc]
      rfl
    · rw [diagnostics_settle, hp, hdiag]
  · cases b with
    | stringStart | commentStart => exact absurd rfl hc
    | scopeStart =>
      refine ⟨_, _, .opened hd, ?_, ?_⟩
      · rw [events_settle, eq_of_scopeStart hb, events_skipRest, openScope]
        simp [events_delimiter, hword, delimiterLeaves_flush]
      · rw [diagnostics_settle, eq_of_scopeStart hb, diagnostics_skipRest, openScope]
        simp
    | scopeEnd =>
      have he : s₁.events.toList = s.events.toList ++ (s.wordLeaves L).map .leaf ++
          (Boundary.scopeEnd.scopeEvents s.cursor ++ (s.delimiterLeaves L n.endMarker).map .leaf) := by
        rw [eq_of_scopeEnd hb, events_skipRest, events_delimiter, events_closeScope, hword, hcur, hnotes,
          delimiterLeaves_closeScope, delimiterLeaves_flush, List.append_assoc _ (Boundary.scopeEvents _ _)]
      have hp : s₁.diagnostics.toList = s.diagnostics.toList ++
          if s.cursor.depth = 0 then [⟨.unbalancedScope, s.cursor.line, s.cursor.index⟩] else [] := by
        rw [eq_of_scopeEnd hb, diagnostics_skipRest, diagnostics_delimiter, diagnostics_closeScope, hdiag, hcur]
      by_cases hdepth : s.cursor.depth = 0
      · refine ⟨_, _, .stray hd hdepth, ?_, ?_⟩
        · rw [events_settle, he]
          simp [Boundary.scopeEvents, hdepth]
        · rw [diagnostics_settle, hp, if_pos hdepth]
      · refine ⟨_, _, .closed hd hdepth, ?_, ?_⟩
        · rw [events_settle, he]
          simp [Boundary.scopeEvents, hdepth]
        · rw [diagnostics_settle, hp, if_neg hdepth]

end State

end LexTree
