import LexTree.Proofs.Bundled
import LexTree.Proofs.Leaves
import LexTree.Proofs.Levels

/-!
# Python blocks

What a step of Python adds to the innermost block: leaves, or leaves up to a colon and the opening of a block, or leaves
and a closing (`Python.adds_of_emits`).  A scope end is found only where Python has a frame to give up, and by lockstep
a scope is open there; so no scope end is ever stray, and every marker has its colon before it.
-/

namespace LexTree

/-- Comments, blanks and newlines. -/
def Leaf.isTrivia (l : Leaf) : Bool := l.isLayout || l.rule = .other && l.name = SymbolicName.comment

/-- Nothing but blanks and a comment follows on the line. -/
def Cursor.Idle (c : Cursor) : Prop :=
  c.firstNonBlank? c.index = none ∨ c.firstNonBlank? c.index = some '\n' ∨ c.firstNonBlank? c.index = some '#'

private theorem Cursor.firstNonBlank?_of_current {c : Cursor} {ch : Char} (h : c.current? = some ch)
    (hb : isBlank ch = false) : c.firstNonBlank? c.index = some ch := by
  obtain ⟨hi, hch⟩ := Array.getElem?_eq_some_iff.1 h
  have hend : blankRunEnd c.text c.index = c.index := by
    rw [blankRunEnd, dif_pos hi, hch, if_neg (by simp [hb])]
  rw [firstNonBlank?, hend]
  exact h

theorem Cursor.not_idle_of_current {c : Cursor} {ch : Char} (h : c.current? = some ch) (hb : isBlank ch = false)
    (hn : ch ≠ '\n') (hh : ch ≠ '#') : ¬ c.Idle := by
  rw [Idle, firstNonBlank?_of_current h hb]
  simp [hn, hh]

namespace Python

open State

variable {o : Options} {s s' : State} {new : List Event} {problems : List Diagnostic}

/-! ### What a step adds -/

/-- A leaf that a step adds to the innermost block. -/
inductive BlockLeaf (s : State) : Leaf → Prop
  | word {l : Leaf} (h : l ∈ s.wordLeaves language) : BlockLeaf s l
  | trivia {l : Leaf} (h : l.isTrivia = true) : BlockLeaf s l
  | content {l : Leaf} (line : l.line = s.cursor.line) (indent : l.indent = s.cursor.indent)
      (inner : closesBlock s.cursor s.notes = false) (busy : ¬ s.cursor.Idle) : BlockLeaf s l

/-- What a step adds to the history. -/
inductive Adds (s : State) : List Event → Prop
  | leaves {new : List Leaf} (each : ∀ l ∈ new, BlockLeaf s l) : Adds s (new.map .leaf)
  | opened (colon : s.cursor.current? = some ':') (ends : endsLine s.cursor = true) (name : String) :
      Adds s ((s.wordLeaves language ++ [s.symbolLeaf name ":"]).map .leaf ++
        [.opened s.cursor.line s.cursor.indent])
  | closed (outer : closesBlock s.cursor s.notes = true) : Adds s ((s.wordLeaves language).map .leaf ++ [.closed])

private theorem current?_of_openingQuote? {c : Cursor} {quote : String} (h : openingQuote? c = some quote) :
    c.current? = some '"' ∨ c.current? = some '\'' := by
  unfold openingQuote? at h
  split at h
  · exact Or.inl ‹_›
  · exact Or.inr ‹_›
  · cases h

theorem not_idle_of_openingQuote? {c : Cursor} {quote : String} (h : openingQuote? c = some quote) : ¬ c.Idle := by
  rcases current?_of_openingQuote? h with h | h
  all_goals exact Cursor.not_idle_of_current h (by decide) (by decide) (by decide)

/-- A step of Python adds leaves, or opens or closes a block after them, and no scope end is stray. -/
theorem adds_of_emits (h : Lockstep s) (hd : s.cursor.depth = s.draft.nested.length)
    (he : s.Emits language o new problems) :
    Adds s new ∧ ∀ d ∈ problems, d.problem ≠ .unbalancedScope := by
  have hcases := dispatch_cases s.cursor s.notes.fresh
  cases he with
  | @plain n leaves found each =>
    rcases hcases with ⟨quote, -, -, hd'⟩ | ⟨-, hd'⟩ | ⟨-, -, hd'⟩ | ⟨frame, frames, -, -, hd'⟩ | ⟨hhash, hblock, -⟩
    all_goals try (rw [found] at hd'; cases hd')
    refine ⟨.leaves fun l hl => ?_, by simp⟩
    cases each l hl with
    | word h => exact .word h
    | layout h => exact .trivia (by simp [Leaf.isTrivia, h])
    | @symbol c here line blank name =>
      refine .content rfl rfl hblock (Cursor.not_idle_of_current here blank line ?_)
      rintro rfl
      exact hhash here
  | @construct b n problems found hb text cut =>
    have hproblems : ∀ d ∈ problems, d.problem ≠ .unbalancedScope := by
      intro d hmem
      simp [cut d hmem]
    refine ⟨.leaves fun l hl => ?_, hproblems⟩
    rcases List.mem_append.1 hl with hl | hl
    · exact .word hl
    · split at hl
      · rw [List.mem_singleton.1 hl]
        rcases hcases with
          ⟨quote, hquote, hblock, hd'⟩ | ⟨-, hd'⟩ | ⟨-, -, hd'⟩ | ⟨frame, frames, -, -, hd'⟩ | ⟨-, -, hd'⟩
        all_goals
          rw [found] at hd'
          cases hd'
        · exact .content rfl rfl hblock (not_idle_of_openingQuote? hquote)
        · exact .trivia (by simp [Leaf.isTrivia, constructLeaf, Boundary.leafName])
        · cases hb
        · cases hb
      · cases hl
  | @opened n found =>
    rcases hcases with ⟨quote, -, -, hd'⟩ | ⟨-, hd'⟩ | ⟨hcolon, hends, hd'⟩ | ⟨frame, frames, -, -, hd'⟩ | ⟨-, -, hd'⟩
    all_goals
      rw [found] at hd'
      cases hd'
    obtain ⟨name, hname⟩ : ∃ name, s.delimiterLeaves language ":" = [s.symbolLeaf name ":"] :=
      ⟨_, delimiterLeaves_singleton (c := ':') (KeywordTable.contains_ofWords_of_not_mem (by decide)) (by decide)
        (by decide) s⟩
    simp only [hname]
    exact ⟨.opened hcolon hends name, by simp⟩
  | @closed n found inner =>
    rcases hcases with ⟨quote, -, -, hd'⟩ | ⟨-, hd'⟩ | ⟨-, -, hd'⟩ | ⟨frame, frames, -, hblock, hd'⟩ | ⟨-, -, hd'⟩
    all_goals
      rw [found] at hd'
      cases hd'
    exact ⟨.closed hblock, by simp⟩
  | @stray n found outer =>
    rcases hcases with ⟨quote, -, -, hd'⟩ | ⟨-, hd'⟩ | ⟨-, -, hd'⟩ | ⟨frame, frames, hf, -, -⟩ | ⟨-, -, hd'⟩
    all_goals try (rw [found] at hd'; cases hd')
    -- a frame is given up, so a scope is open
    exact absurd outer (h.depth_ne_zero hd hf)

/-! ### Colons -/

/-- Every opening in an outline comes right behind its colon. -/
def Led (_ : Option Frame) (es : List Event) : Prop :=
  ∀ k line indent, es[k]? = some (.opened line indent) →
    ∃ j name, k = j + 1 ∧ es[j]? = some (.leaf ⟨line, indent, .symbol, name, ":"⟩)

private theorem composable_led : Composable Led := by
  refine ⟨?_, ?_⟩
  · intro place k line indent hk
    cases hk
  · intro place es fs hes hfs k line indent hk
    rcases Nat.lt_or_ge k es.length with hlt | hge
    · rw [List.getElem?_append_left hlt] at hk
      obtain ⟨j, name, rfl, hj⟩ := hes k line indent hk
      refine ⟨j, name, rfl, ?_⟩
      rw [List.getElem?_append_left (by omega)]
      exact hj
    · rw [List.getElem?_append_right hge] at hk
      obtain ⟨j, name, hkj, hj⟩ := hfs _ line indent hk
      refine ⟨es.length + j, name, by omega, ?_⟩
      rw [List.getElem?_append_right (by omega), Nat.add_sub_cancel_left]
      exact hj

private theorem led_leaves (place : Option Frame) (leaves : List Leaf) : Led place (leaves.map .leaf) := by
  intro k line indent hk
  rw [List.getElem?_map] at hk
  cases hl : leaves[k]? with
  | none =>
    rw [hl] at hk
    cases hk
  | some l =>
    rw [hl] at hk
    cases hk

/-- The scopes of the tree under construction are led by colons. -/
private theorem outlined_led_of_adds (h : s.draft.Outlined Led) (ha : Adds s new) :
    (new.foldl Draft.apply s.draft).Outlined Led := by
  cases ha with
  | leaves each => exact h.leaves composable_led (led_leaves _ _)
  | opened colon ends name =>
    refine h.opened composable_led ?_
    rw [List.map_append, List.append_assoc]
    refine composable_led.append _ _ _ (led_leaves _ _) ?_
    intro k line indent hk
    match k with
    | 0 => cases hk
    | 1 =>
      cases hk
      exact ⟨0, name, rfl, rfl⟩
    | k + 2 => cases hk
  | closed outer => exact h.closed composable_led (led_leaves _ _)

/-- Along a run the scopes are led by colons, and no scope end is reported as stray. -/
private theorem led_of_runs {text : String} {heads : List State} {t : State}
    (h : Runs language o (start text) heads t) :
    t.draft.Outlined Led ∧ ∀ d ∈ t.diagnostics.toList, d.problem ≠ .unbalancedScope := by
  refine h.invariant_along
    (P := fun u => u.draft.Outlined Led ∧ ∀ d ∈ u.diagnostics.toList, d.problem ≠ .unbalancedScope)
    ⟨Draft.outlined_empty composable_led, by simp [start]⟩ ?_
  rintro heads u u' hr ⟨hled, hdiag⟩ - hstep
  obtain ⟨new, problems, hemits, he, hp⟩ := emits_step hstep
  obtain ⟨hadds, hproblems⟩ := adds_of_emits hr.lockstep.2 hr.depth_eq.2 hemits
  refine ⟨?_, ?_⟩
  · rw [draft_of_events he]
    exact outlined_led_of_adds hled hadds
  · intro d hmem
    rw [hp] at hmem
    rcases List.mem_append.1 hmem with hmem | hmem
    · exact hdiag d hmem
    · exact hproblems d hmem

/-- Where a block ends, the frame given up is that of the innermost open scope. -/
private theorem Lockstep.pop {n : Notes} (h : Lockstep s)
    (found : language.dispatch s.cursor s.notes.fresh = .ok (some .scopeEnd) n) :
    ∃ frame, s.draft.frames.head? = some frame ∧ s.notes.scratch.popFrame .scope = .ok (frame, n.scratch) := by
  rcases dispatch_cases s.cursor s.notes.fresh with
    ⟨quote, -, -, hd⟩ | ⟨-, hd⟩ | ⟨-, -, hd⟩ | ⟨frame, frames, hf, -, hd⟩ | ⟨-, -, hd⟩
  all_goals
    rw [found] at hd
    cases hd
  have hframes : s.notes.scratch.scope.frames = frame :: frames := hf
  refine ⟨frame, ?_, ?_⟩
  · rw [← h, hframes]
    rfl
  · rw [Scratch.popFrame, show (s.notes.scratch.slot .scope).frames = frame :: frames from hframes]
    rfl

private theorem dispatch_ok (c : Cursor) (n : Notes) : ∃ b n', language.dispatch c n = .ok b n' := by
  rcases dispatch_cases c n with
    ⟨quote, -, -, hd⟩ | ⟨-, hd⟩ | ⟨-, -, hd⟩ | ⟨frame, frames, -, -, hd⟩ | ⟨-, -, hd⟩
  all_goals exact ⟨_, _, hd⟩

end Python

private theorem Options.validate_of_pos {o : Options} (h : 1 ≤ o.indentWidth) : o.validate = .ok () := by
  rw [validate, if_neg]
  intro h0
  rw [h0] at h
  exact absurd h (by decide)

private theorem Closing.asked {ends : Predicate} {c : Cursor} {n : Notes} (h : Closing ends c n) (d : Cursor) :
    ∃ b, ends d n = .ok b n := by
  cases h with
  | delimiter test asked shown visible => exact ⟨test d, asked d⟩
  | lineEnd marker asked => exact ⟨_, asked d⟩

namespace State

variable {L : Language} {s : State}

/-- The end of a comment that was found can be asked for anywhere. -/
private theorem Honest.comment_asked {n : Notes} (h : s.Honest L)
    (found : L.dispatch s.cursor s.notes.fresh = .ok (some .commentStart) n) (d : Cursor) :
    ∃ b, L.predicate (.closes .comment) d n = .ok b n := by
  cases h with
  | plain found' | string found' | opened found' | closed found' | dedented found' =>
    rw [found] at found'
    cases found'
  | comment found' moves opening closing =>
    rw [found] at found'
    cases found'
    exact closing.asked d

theorem outlined_flush {P : Option Frame → List Event → Prop} (hP : Composable P) (h : s.draft.Outlined P)
    (hword : P s.draft.frames.head? ((s.wordLeaves L).map .leaf)) :
    AllOutlines P (s.finish L).root.levels := by
  have hdraft := h.leaves hP hword
  rw [← draft_of_events (events_flush s L)] at hdraft
  exact (Draft.allOutlines_finish _).2 hdraft

end State

open State in
/-- Python keeps one frame for each open scope, with its line and indent, at every head.  So finding a boundary never
fails, the frame given up where a block ends is that of the innermost scope, no scope end is stray, and every marker
comes right behind its colon.  A bundled language scans every text, and the end of a comment can be asked for wherever
one was found. -/
theorem scan_python_lockstep {o : Options} (ho : 1 ≤ o.indentWidth) (text : String) :
    (∀ heads u, Runs Python.language o (start text) heads u →
      u.notes.scratch.scope.frames = u.draft.frames ∧ u.draft.frames.length = u.cursor.depth ∧
      (∃ b n, Python.language.dispatch u.cursor u.notes.fresh = .ok b n) ∧
      ∀ n, Python.language.dispatch u.cursor u.notes.fresh = .ok (some .scopeEnd) n →
        ∃ frame, u.draft.frames.head? = some frame ∧ u.notes.scratch.popFrame .scope = .ok (frame, n.scratch)) ∧
    (∃ out, scan Python.language o text = .ok out ∧
      (∀ d ∈ out.diagnostics.toList, d.problem ≠ .unbalancedScope) ∧
      ∀ place scope, (place, scope) ∈ out.root.levels → ∀ k line indent inner,
        scope.tokens[k]? = some (.marker line indent inner) →
          ∃ j name, k = j + 1 ∧ scope.tokens[j]? = some (.leaf ⟨line, indent, .symbol, name, ":"⟩)) ∧
    ∀ L ∈ Bundled.languages, (∃ out, scan L o text = .ok out) ∧
      ∀ heads u n, Runs L o (start text) heads u →
        L.dispatch u.cursor u.notes.fresh = .ok (some .commentStart) n →
          ∀ d, ∃ b, L.predicate (.closes .comment) d n = .ok b n := by
  have hvalid := Options.validate_of_pos ho
  have hL : Python.language ∈ Bundled.languages := by simp [Bundled.languages]
  refine ⟨?_, ?_, ?_⟩
  · intro heads u hr
    have hlock : Python.Lockstep u := hr.lockstep.2
    refine ⟨hlock, ?_, Python.dispatch_ok _ _, fun n hfound => hlock.pop hfound⟩
    rw [Draft.length_frames, hr.depth_eq.2]
  · obtain ⟨heads, t, hr, -, hscan⟩ := scan_bundled hL hvalid text
    obtain ⟨hled, hdiag⟩ := Python.led_of_runs hr
    have hlevels := outlined_flush (L := Python.language) Python.composable_led hled (Python.led_leaves _ _)
    refine ⟨_, hscan, ?_, ?_⟩
    · rw [finish, diagnostics_flush]
      exact hdiag
    · intro place scope hmem k line indent inner hk
      obtain ⟨j, name, hkj, hj⟩ := hlevels place scope hmem k line indent (by rw [Scope.getElem?_outline, hk]; rfl)
      rw [Scope.getElem?_outline, Option.map_eq_some_iff] at hj
      obtain ⟨t, ht, hleaf⟩ := hj
      refine ⟨j, name, hkj, ?_⟩
      rw [ht, Token.eq_leaf_of_event hleaf]
  · intro L hmem
    refine ⟨?_, ?_⟩
    · obtain ⟨heads, t, -, -, hscan⟩ := scan_bundled hmem hvalid text
      exact ⟨_, hscan⟩
    · intro heads u n hr hfound d
      exact (hr.honest hmem).2.comment_asked hfound d

theorem scan_python_lockstep_blocks :
    ∃ out, scan Python.language {} "if a:\n    if b:\n        c\nd" = .ok out ∧
      out.root.levels.map Prod.fst = [none, some ⟨1, 0⟩, some ⟨2, 1⟩] ∧
      (∀ d ∈ out.diagnostics.toList, d.problem ≠ .unbalancedScope) ∧
      ∀ place scope, (place, scope) ∈ out.root.levels → ∀ k line indent inner,
        scope.tokens[k]? = some (.marker line indent inner) →
          ∃ j name, k = j + 1 ∧ scope.tokens[j]? = some (.leaf ⟨line, indent, .symbol, name, ":"⟩) := by
  have hlevels : (scan Python.language {} "if a:\n    if b:\n        c\nd").toOption.map
      (fun out => out.root.levels.map Prod.fst) = some [none, some ⟨1, 0⟩, some ⟨2, 1⟩] := by
    decide +kernel
  obtain ⟨-, ⟨out, hscan, hdiag, hled⟩, -⟩ :=
    scan_python_lockstep (o := {}) (by decide) "if a:\n    if b:\n        c\nd"
  rw [hscan] at hlevels
  exact ⟨out, hscan, Option.some.inj hlevels, hdiag, hled⟩

end LexTree
