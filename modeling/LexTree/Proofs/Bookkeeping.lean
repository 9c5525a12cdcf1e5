import LexTree.Proofs.Bundled
import LexTree.Proofs.Progress
import Mathlib.Data.List.Forall2

/-!
# Bookkeeping of lines and indents

The scan never looks back: it counts newlines and measures blanks as it crosses them.  At every head the line and indent
of the cursor are the ones that the text defines at its index (`Exact`), and every token carries the line and indent of
the index where it starts.  The index where a token starts is read off the head of its step: the gathered word starts
where its first character stands, everything else where the step found it (`starts`).

This needs one thing of a language: that on a newline it finds no boundary and does not ask the cursor to stay, except
to close a scope there (`MindsNewlines`).
-/

namespace LexTree

/-! ### Stamps of a history -/

/-- The line and indent that an event carries. -/
def Event.stamp? : Event → Option Frame
  | leaf l => some ⟨l.line, l.indent⟩
  | opened line indent => some ⟨line, indent⟩
  | closed => none

/-- The line and indent that an entry of a walk carries. -/
def Entry.stamp : Entry → Frame
  | leaf _ l => ⟨l.line, l.indent⟩
  | scope _ line indent _ => ⟨line, indent⟩

theorem Event.map_stamp_logFrom (depth : Nat) (es : List Event) :
    (logFrom depth es).map Entry.stamp = es.filterMap stamp? := by
  induction es generalizing depth with
  | nil => rfl
  | cons e es ih =>
    cases e <;> simp [logFrom, entries, ih, List.filterMap_cons, Entry.stamp, stamp?]

/-- Number of tokens that handling a boundary emits. -/
def Boundary.tokenCount (o : Options) (n : Notes) : Boundary → Nat
  | stringStart => if o.includeStrings then 1 else 0
  | commentStart => if o.includeComments then 1 else 0
  | scopeStart => (if n.startMarker.isEmpty then 0 else 1) + 1
  | scopeEnd => if n.endMarker.isEmpty then 0 else 1

/-! ### Where tokens start -/

/-- Where the newlines crossed from the one at `i` on start, and the blanks after each. -/
def newlineStarts (o : Options) (text : Array Char) (i : Nat) : List Nat :=
  let runEnd := blankRunEnd text (i + 1)
  (if o.includeNewlines then [i] else []) ++ (if o.includeWhitespace && i + 1 < runEnd then [i + 1] else []) ++
    if _h : text[runEnd]? = some '\n' then newlineStarts o text runEnd else []
termination_by text.size - i
decreasing_by
  have h₁ : blankRunEnd text (i + 1) < text.size := (Array.getElem?_eq_some_iff.1 _h).1
  have h₂ := le_blankRunEnd text (i + 1)
  omega

namespace State

/-- Where the gathered word starts. -/
def wordStart (s : State) : List Nat := if s.word.isEmpty then [] else [s.cursor.index - s.word.length]

/-- Where the tokens of a plain character start. -/
def plainStarts (s : State) (L : Language) (o : Options) : List Nat :=
  match s.cursor.current? with
  | none => []
  | some c =>
    if L.isWordChar c then []
    else
      s.wordStart ++
        if c = '\n' then newlineStarts o s.cursor.text s.cursor.index
        else if isBlank c && !o.includeWhitespace then []
        else [s.cursor.index]

/-- Where the tokens emitted by the step that begins here start, in order. -/
def starts (L : Language) (o : Options) (s : State) : List Nat :=
  match L.dispatch s.cursor s.notes.fresh with
  | .ok none _ => s.plainStarts L o
  | .ok (some b) notes => s.wordStart ++ List.replicate (b.tokenCount o notes) s.cursor.index
  | .error _ _ => []

/-- The lines and indents of the tokens emitted so far. -/
def stamps (s : State) : List Frame := s.events.toList.filterMap Event.stamp?

/-- The tokens emitted on the way from one state to another carry the lines and indents of the given indices. -/
def EmitsAt (o : Options) (cs : List Char) (s : State) (starts : List Nat) (s' : State) : Prop :=
  ∃ new, s'.stamps = s.stamps ++ new ∧ List.Forall₂ (Frame.IsAt o cs) starts new

variable {L : Language} {o : Options} {cs : List Char} {s s' s'' t : State} {heads : List State} {i : Nat}

private theorem EmitsAt.of_events_eq (h : s'.events = s.events) : EmitsAt o cs s [] s' :=
  ⟨[], by simp [stamps, h], .nil⟩

theorem EmitsAt.trans {is js : List Nat} (h : EmitsAt o cs s is s') (h' : EmitsAt o cs s' js s'') :
    EmitsAt o cs s (is ++ js) s'' := by
  obtain ⟨new, he, hf⟩ := h
  obtain ⟨new', he', hf'⟩ := h'
  exact ⟨new ++ new', by rw [he', he, List.append_assoc], List.rel_append hf hf'⟩

private theorem EmitsAt.trans_events_eq {is : List Nat} (h : EmitsAt o cs s is s') (h' : s''.events = s'.events) :
    EmitsAt o cs s is s'' := by
  simpa using h.trans (.of_events_eq h')

private theorem emitsAt_push {e : Event} {f : Frame} (he : e.stamp? = some f) (hf : f.IsAt o cs i) :
    EmitsAt o cs s [i] { s with events := s.events.push e } :=
  ⟨[f], by simp [stamps, he], .cons hf .nil⟩

private theorem emitsAt_leaves {leaves : List Leaf} {is : List Nat}
    (he : s'.events.toList = s.events.toList ++ leaves.map Event.leaf)
    (hf : List.Forall₂ (fun i l => Frame.IsAt o cs i ⟨l.line, l.indent⟩) is leaves) : EmitsAt o cs s is s' := by
  refine ⟨leaves.map fun l => ⟨l.line, l.indent⟩, ?_, List.forall₂_map_right_iff.2 hf⟩
  rw [stamps, he, List.filterMap_append, List.filterMap_map]
  congr 1
  exact congrFun List.filterMap_eq_map leaves

private theorem emitsAt_emit {rule : Rule} {name text : String} (hf : s.cursor.frame.IsAt o cs i) :
    EmitsAt o cs s [i] (s.emit rule name text) :=
  emitsAt_push rfl hf

private theorem emitsAt_delimiter (L : Language) (text : String) (hf : s.cursor.frame.IsAt o cs i) :
    EmitsAt o cs s (List.replicate (if text.isEmpty then 0 else 1) i) (s.delimiter L text) := by
  unfold delimiter
  split
  · exact .of_events_eq rfl
  · exact emitsAt_emit hf

/-! ### Exact states -/

/-- Line and indent of the cursor are exact, and the gathered word stands right before it, on the same line. -/
structure Exact (o : Options) (s : State) : Prop where
  stamps : s.cursor.Stamps o s.cursor.index
  word : s.word.toList <:+ s.cursor.text.toList.take s.cursor.index
  one_line : ∀ k, s.cursor.index ≤ k + s.word.length → k < s.cursor.index → s.cursor.text.toList[k]? ≠ some '\n'

private theorem Exact.of_stamps (h : s.cursor.Stamps o s.cursor.index) (hw : s.word = "") : Exact o s := by
  refine ⟨h, ?_, ?_⟩
  · rw [hw]
    exact List.nil_suffix
  · intro k hk hlt
    rw [hw] at hk
    exact absurd hlt (Nat.not_lt.2 hk)

private theorem exact_start (o : Options) (text : String) : Exact o (start text) := .of_stamps ⟨rfl, rfl⟩ rfl

private theorem exact_moveOn (h : s.cursor.Stamps o (s.cursor.index + 1)) (hw : s.word = "") : Exact o s.moveOn :=
  .of_stamps (h.of_eq rfl rfl rfl) hw

private theorem Exact.wordStart_isAt (h : Exact o s) :
    s.cursor.frame.IsAt o s.cursor.text.toList (s.cursor.index - s.word.length) := by
  obtain ⟨hl, hi⟩ := position_eq_of_no_newline o s.cursor.text.toList (s.cursor.index - s.word.length)
    (s.cursor.index - (s.cursor.index - s.word.length)) fun k hk hk' => h.one_line k (by omega) (by omega)
  rw [show s.cursor.index - s.word.length + (s.cursor.index - (s.cursor.index - s.word.length)) = s.cursor.index
    by omega] at hl hi
  exact ⟨h.stamps.1.trans hl, h.stamps.2.trans hi⟩

theorem Exact.emitsAt_flush (h : Exact o s) (L : Language) :
    EmitsAt o s.cursor.text.toList s s.wordStart (s.flush L) := by
  unfold flush wordStart
  split
  · exact .of_events_eq rfl
  · exact emitsAt_push rfl h.wordStart_isAt

/-! ### Plain characters -/

private theorem emitsAt_crossNewline (hc : s.cursor.Countable) (h : s.cursor.Stamps o s.cursor.index)
    (hn : s.cursor.current? = some '\n') :
    EmitsAt o s.cursor.text.toList s
      ((if o.includeNewlines then [s.cursor.index] else []) ++
        if o.includeWhitespace && s.cursor.index + 1 < blankRunEnd s.cursor.text (s.cursor.index + 1) then
          [s.cursor.index + 1]
        else [])
      (s.crossNewline o) := by
  have hnext : Frame.IsAt o s.cursor.text.toList (s.cursor.index + 1)
      ⟨s.cursor.line + 1, o.measureIndent (s.cursor.blankRun (s.cursor.index + 1))⟩ :=
    h.newline (d := { s.cursor with
      line := s.cursor.line + 1
      indent := o.measureIndent (s.cursor.blankRun (s.cursor.index + 1)) })
      hc (Cursor.current?_eq s.cursor ▸ hn) rfl rfl rfl
  refine emitsAt_leaves (events_crossNewline s o) ?_
  simp only [crossedLeaves, Cursor.not_isEmpty_blankRun]
  refine List.rel_append ?_ ?_
  · split
    · exact .cons h .nil
    · exact .nil
  · split
    · exact .cons hnext .nil
    · exact .nil

private theorem emitsAt_newline (hc : s.cursor.Countable) (h : s.cursor.Stamps o s.cursor.index)
    (hn : s.cursor.current? = some '\n') :
    EmitsAt o s.cursor.text.toList s (newlineStarts o s.cursor.text s.cursor.index) (s.newline o) := by
  fun_induction newline s o with
  | case1 s next hp ih =>
    -- the next newline stands right after the blanks of the line
    have hi : next.cursor.index + 1 = blankRunEnd s.cursor.text (s.cursor.index + 1) := index_crossNewline s o
    have ht : next.cursor.text = s.cursor.text := text_crossNewline s o
    have h₂ : EmitsAt o next.cursor.text.toList next (newlineStarts o next.cursor.text (next.cursor.index + 1)) _ :=
      ih (by simpa [Cursor.Countable, ht] using hc) ((stamps_crossNewline hc h hn).of_eq rfl rfl rfl) hp
    rw [congrArg Array.toList ht, congr (congrArg (newlineStarts o) ht) hi] at h₂
    rw [Cursor.peek?, ht, hi] at hp
    rw [newlineStarts, dif_pos hp]
    exact (emitsAt_crossNewline hc h hn).trans h₂
  | case2 s next hp =>
    have hi : next.cursor.index + 1 = blankRunEnd s.cursor.text (s.cursor.index + 1) := index_crossNewline s o
    have ht : next.cursor.text = s.cursor.text := text_crossNewline s o
    rw [Cursor.peek?, ht, hi] at hp
    rw [newlineStarts, dif_neg hp, List.append_nil]
    exact emitsAt_crossNewline hc h hn

private theorem index_newline_lt (hs : s.Inside) : (s.newline o).cursor.index < s.cursor.text.size := by
  fun_induction newline s o with
  | case1 s next hp ih =>
    have hlt := ih (Array.getElem?_eq_some_iff.1 hp).1
    rwa [show next.cursor.text = s.cursor.text from text_crossNewline s o] at hlt
  | case2 s next hp =>
    have hs : s.cursor.index < s.cursor.text.size := hs
    have hle := blankRunEnd_le s.cursor.text (s.cursor.index + 1)
    have hindex : next.cursor.index + 1 = blankRunEnd s.cursor.text (s.cursor.index + 1) := index_crossNewline s o
    omega

theorem index_plain_lt (hs : s.Inside) : (s.plain L o).cursor.index < s.cursor.text.size := by
  have hflush : (s.flush L).cursor = s.cursor := cursor_flush s L
  have hin : (s.flush L).Inside := by rwa [Inside, hflush]
  unfold plain
  split
  · exact hs
  · split
    · exact hs
    · simp only
      split
      · rw [← hflush]
        exact index_newline_lt hin
      · rw [← hflush]
        split <;> exact hin

/-- What a plain character does to an exact state, before the cursor settles. -/
theorem Exact.plain (h : Exact o s) (hc : s.cursor.Countable) (hw : L.isWordChar '\n' = false) (hs : s.Inside) :
    EmitsAt o s.cursor.text.toList s (s.plainStarts L o) (s.plain L o) ∧
      Exact o (s.plain L o).moveOn ∧
      (s.cursor.current? ≠ some '\n' → (s.plain L o).cursor = s.cursor) := by
  obtain ⟨c, hcur⟩ : ∃ c, s.cursor.current? = some c := ⟨_, Array.getElem?_eq_getElem hs⟩
  have hget : s.cursor.text.toList[s.cursor.index]? = some c := Cursor.current?_eq s.cursor ▸ hcur
  simp only [State.plain, plainStarts, hcur]
  by_cases hword : L.isWordChar c = true
  · -- the word grows by a character that is no newline
    have hne : s.cursor.text.toList[s.cursor.index]? ≠ some '\n' := by
      intro hn
      rw [hget] at hn
      injection hn with hn
      rw [hn, hw] at hword
      cases hword
    rw [if_pos hword, if_pos hword]
    refine ⟨.of_events_eq rfl, ⟨(h.stamps.succ_of_ne hne).of_eq rfl rfl rfl, ?_, ?_⟩, fun _ => rfl⟩
    · obtain ⟨before, hb⟩ := h.word
      refine ⟨before, ?_⟩
      simp only [moveOn, String.toList_push, List.take_add_one, hget, Option.toList_some]
      rw [← List.append_assoc, hb]
    · intro k hk hlt
      simp only [moveOn, String.length_push] at hk hlt ⊢
      rcases Nat.lt_or_eq_of_le (Nat.le_of_lt_succ hlt) with hlt | rfl
      · exact h.one_line k (by omega) hlt
      · exact hne
  · rw [if_neg hword, if_neg hword]
    have hflush := h.emitsAt_flush L
    by_cases hn : c = '\n'
    · rw [if_pos hn, if_pos hn]
      rw [hn] at hcur
      have hnl : EmitsAt o s.cursor.text.toList (s.flush L) (newlineStarts o s.cursor.text s.cursor.index)
          ((s.flush L).newline o) := by
        have := emitsAt_newline (o := o) (s := s.flush L)
        rw [cursor_flush] at this
        exact this hc h.stamps hcur
      have hst := stamps_newline (o := o) (s := s.flush L)
      rw [cursor_flush] at hst
      refine ⟨hflush.trans hnl, exact_moveOn (hst hc h.stamps hcur) ?_, fun hne => ?_⟩
      · rw [(frame_newline ..).2.1, word_flush]
      · exact absurd (congrArg some hn) hne
    · rw [if_neg hn, if_neg hn]
      have hne : s.cursor.text.toList[s.cursor.index]? ≠ some '\n' := by
        rw [hget]
        exact fun h => hn (Option.some.inj h)
      have hsucc : (s.flush L).cursor.Stamps o ((s.flush L).cursor.index + 1) := by
        rw [cursor_flush]
        exact h.stamps.succ_of_ne hne
      split
      · exact ⟨by simpa using hflush, exact_moveOn hsucc (word_flush s L), fun _ => cursor_flush s L⟩
      · have hemit : EmitsAt o s.cursor.text.toList (s.flush L) [s.cursor.index]
            ((s.flush L).emit (classifySymbol L.symbols (String.singleton c)).1
              (classifySymbol L.symbols (String.singleton c)).2 (String.singleton c)) :=
          emitsAt_emit (by rw [cursor_flush]; exact h.stamps)
        exact ⟨hflush.trans hemit, exact_moveOn hsucc (word_flush s L), fun _ => cursor_flush s L⟩

/-! ### Boundaries -/

private theorem emitsAt_construct {ends : Predicate} {name : String} {included : Bool}
    (h : s.cursor.Stamps o s.cursor.index) (hs : s.construct o ends name included = .ok () s') :
    EmitsAt o s.cursor.text.toList s (List.replicate (if included then 1 else 0) s.cursor.index) s' := by
  obtain ⟨leaf, s₁, hv, rfl⟩ := construct_cases hs
  obtain ⟨body, notes, -, hl, hi, -⟩ := verbatim_cases hv
  have h₁ : EmitsAt o s.cursor.text.toList s [] s₁ := .of_events_eq (events_verbatim hv)
  have hleaf : Frame.IsAt o s.cursor.text.toList s.cursor.index ⟨leaf.line, leaf.indent⟩ := by
    rw [hl, hi]
    exact h
  split
  · exact (h₁.trans (emitsAt_push rfl hleaf)).trans_events_eq (events_skipRest ..)
  · exact h₁.trans_events_eq (events_skipRest ..)

private theorem stamps_closeScope (s : State) : s.closeScope.stamps = s.stamps := by
  rw [stamps, events_closeScope, List.filterMap_append, stamps]
  simp only [Boundary.scopeEvents]
  split <;> simp [Event.stamp?]

private theorem emitsAt_boundary {b : Boundary} (h : s.cursor.Stamps o s.cursor.index)
    (hb : s.boundary L o b = .ok () s') :
    EmitsAt o s.cursor.text.toList s (List.replicate (b.tokenCount o s.notes) s.cursor.index) s' := by
  cases b with
  | stringStart => exact emitsAt_construct h hb
  | commentStart => exact emitsAt_construct h hb
  | scopeStart =>
    obtain rfl := eq_of_scopeStart hb
    have hd := emitsAt_delimiter L s.notes.startMarker h
    have ho : EmitsAt o s.cursor.text.toList (s.delimiter L s.notes.startMarker) [s.cursor.index]
        (s.delimiter L s.notes.startMarker).openScope :=
      emitsAt_push (f := s.cursor.frame) (by rw [cursor_delimiter]; rfl) h
    rw [Boundary.tokenCount, List.replicate_succ']
    exact (hd.trans ho).trans_events_eq (events_skipRest ..)
  | scopeEnd =>
    obtain rfl := eq_of_scopeEnd hb
    have hc : EmitsAt o s.cursor.text.toList s [] s.closeScope := ⟨[], by simp [stamps_closeScope], .nil⟩
    have hd := emitsAt_delimiter (s := s.closeScope) L s.notes.endMarker (by rw [cursor_closeScope]; exact h)
    exact (hc.trans hd).trans_events_eq (events_skipRest ..)

private theorem word_boundary {b : Boundary} (hb : s.boundary L o b = .ok () s') : s'.word = s.word := by
  cases b with
  | stringStart | commentStart =>
    obtain ⟨leaf, s₁, hv, rfl⟩ := construct_cases hb
    obtain ⟨body, notes, -, -, -, ⟨-, -, rfl⟩ | ⟨-, -, rfl⟩⟩ := verbatim_cases hv
    all_goals
      rw [word_skipRest]
      split
    · rfl
    · rfl
    · simp only
      split <;> rfl
    · split <;> rfl
  | scopeStart =>
    rw [eq_of_scopeStart hb, word_skipRest]
    exact word_delimiter ..
  | scopeEnd =>
    rw [eq_of_scopeEnd hb, word_skipRest, word_delimiter, word_closeScope]

theorem word_of_found {b : Boundary} {n : Notes} (found : L.dispatch s.cursor s.notes.fresh = .ok (some b) n)
    (h : s.step L o = .ok () s') : s'.word = "" := by
  obtain ⟨s₁, hb, rfl⟩ := boundary_of_step found h
  have hw : s₁.word = "" := by rw [word_boundary hb, word_flush]
  obtain ⟨he, -⟩ | ⟨he, -⟩ := settle_cases s.cursor s₁ <;> rw [he]
  · exact hw
  · exact hw

private theorem rests_boundary {b : Boundary} (hc : s.cursor.Countable) (h : s.cursor.Rests o)
    (hb : s.boundary L o b = .ok () s') : s'.cursor.Rests o := by
  cases b with
  | stringStart => exact rests_construct hc h hb
  | commentStart => exact rests_construct hc h hb
  | scopeStart =>
    obtain rfl := eq_of_scopeStart hb
    have hcur : (s.delimiter L s.notes.startMarker).openScope.cursor =
        { s.cursor with depth := s.cursor.depth + 1 } := by
      rw [openScope, cursor_delimiter]
    exact rests_skipRest (by rw [hcur]; exact hc) (by rw [hcur]; exact h) _
  | scopeEnd =>
    obtain rfl := eq_of_scopeEnd hb
    have hcur : (s.closeScope.delimiter L s.notes.endMarker).cursor =
        { s.cursor with depth := s.cursor.depth - 1 } := by
      rw [cursor_delimiter, cursor_closeScope]
    exact rests_skipRest (by rw [hcur]; exact hc) (by rw [hcur]; exact h) _

/-! ### Steps -/

/-- On a newline no boundary is found and the cursor goes on, or a scope is closed and the cursor is to stay. -/
def MindsNewlines (L : Language) (s : State) : Prop :=
  s.cursor.current? = some '\n' →
    (∃ n, L.dispatch s.cursor s.notes.fresh = .ok none n ∧ n.suppressed = false) ∨
      ∃ n, L.dispatch s.cursor s.notes.fresh = .ok (some .scopeEnd) n ∧ n.suppressed = true ∧ s.cursor.depth ≠ 0

private theorem Honest.mindsNewlines (h : s.Honest L) : MindsNewlines L s := by
  intro hn
  cases h with
  | plain found moves => exact Or.inl ⟨_, found, moves⟩
  | string found moves opening closing => exact absurd hn opening.current?_ne
  | comment found moves opening closing => exact absurd hn opening.current?_ne
  | opened found moves opening => exact absurd hn opening.current?_ne
  | closed found moves closing => exact absurd hn closing.current?_ne
  | dedented found stays silent inner => exact Or.inr ⟨_, found, stays, inner⟩

private theorem exact_settle_of_rests (before : Cursor) (h : s.cursor.Rests o) (hw : s.word = "") :
    Exact o (settle before s) := by
  obtain ⟨he, -⟩ | ⟨he, -⟩ := settle_cases before s <;> rw [he]
  · exact .of_stamps h.1 hw
  · exact exact_moveOn h.stamps_succ hw

private theorem exact_settle_of_closed (h : s.cursor.Stamps o s.cursor.index) (hw : s.word = "")
    (hn : s.notes.suppressed = true) (hd : s.cursor.depth ≠ 0) (hb : s.boundary L o .scopeEnd = .ok () s') :
    Exact o (settle s.cursor s') := by
  obtain ⟨hsettle, hs'⟩ := settle_of_closed hn hd hb
  have hcur : s'.cursor = { s.cursor with depth := s.cursor.depth - 1 } := by
    rw [hs', cursor_delimiter, cursor_closeScope]
  rw [hsettle]
  refine .of_stamps ?_ ?_
  · rw [hcur]
    exact h
  · rw [hs', word_delimiter, word_closeScope, hw]

/-- A step keeps states exact, and stamps the tokens it emits with the places where they start. -/
private theorem Exact.step (h : Exact o s) (hc : s.cursor.Countable) (hw : L.isWordChar '\n' = false)
    (hm : MindsNewlines L s) (hs : s.Inside) (hstep : s.step L o = .ok () s') :
    Exact o s' ∧ EmitsAt o s.cursor.text.toList s (starts L o s) s' := by
  obtain ⟨notes, hd, rfl⟩ | ⟨b, notes, s₁, hd, hb, rfl⟩ := step_cases hstep
  · have hE : Exact o { s with notes } := ⟨h.stamps, h.word, h.one_line⟩
    obtain ⟨hemit, hmove, hcur⟩ := hE.plain (L := L) hc hw hs
    have hsettle : settle s.cursor (State.plain { s with notes } L o) = (State.plain { s with notes } L o).moveOn := by
      obtain ⟨-, hsup, hdiff⟩ | ⟨he, -⟩ := settle_cases s.cursor (State.plain { s with notes } L o)
      · by_cases hn : s.cursor.current? = some '\n'
        · -- on a newline the cursor is not asked to stay
          rcases hm hn with ⟨n, hd', hsup'⟩ | ⟨n, hd', -⟩
          · rw [hd] at hd'
            injection hd' with _ hd'
            rw [(frame_plain ..).1, hd', hsup'] at hsup
            cases hsup
          · rw [hd] at hd'
            cases hd'
        · have hc' : (State.plain { s with notes } L o).cursor = s.cursor := hcur hn
          rw [hc'] at hdiff
          omega
      · exact he
    rw [hsettle]
    refine ⟨hmove, ?_⟩
    unfold starts
    rw [hd]
    exact hemit
  · have hE : Exact o { s with notes } := ⟨h.stamps, h.word, h.one_line⟩
    have hflush : EmitsAt o s.cursor.text.toList s s.wordStart (flush { s with notes } L) := hE.emitsAt_flush L
    have hcf : (flush { s with notes } L).cursor = s.cursor := cursor_flush ..
    have hnf : (flush { s with notes } L).notes = notes := notes_flush ..
    have hst : (flush { s with notes } L).cursor.Stamps o (flush { s with notes } L).cursor.index := by
      rw [hcf]
      exact h.stamps
    have hemit := emitsAt_boundary hst hb
    rw [hcf, hnf] at hemit
    constructor
    · by_cases hn : s.cursor.current? = some '\n'
      · -- a scope is closed on the newline
        rcases hm hn with ⟨n, hd', -⟩ | ⟨n, hd', hsup, hdepth⟩
        · rw [hd] at hd'
          cases hd'
        · rw [hd] at hd'
          injection hd' with hb' hn'
          injection hb' with hb'
          subst hb' hn'
          have := exact_settle_of_closed hst (word_flush ..) (by rw [hnf]; exact hsup) (by rw [hcf]; exact hdepth) hb
          rwa [hcf] at this
      · refine exact_settle_of_rests _ (rests_boundary ?_ ⟨hst, ?_⟩ hb) ?_
        · rw [hcf]
          exact hc
        · rw [hcf]
          exact hn
        · rw [word_boundary hb, word_flush]
    · unfold starts
      rw [hd]
      exact (hflush.trans hemit).trans_events_eq (events_settle ..)

/-! ### Runs -/

/-- A run keeps states exact, and stamps every token with the place where it starts. -/
private theorem Runs.exact (h : Runs L o s heads t) (hE : Exact o s) (hc : s.cursor.Countable)
    (hw : L.isWordChar '\n' = false) (hm : ∀ u ∈ heads, MindsNewlines L u) :
    Exact o t ∧ t.cursor.text = s.cursor.text ∧
      EmitsAt o s.cursor.text.toList s (heads.flatMap (starts L o)) t := by
  induction h with
  | done s => exact ⟨hE, rfl, .of_events_eq rfl⟩
  | @step s s' t heads hs h rest ih =>
    have ht := text_step h
    obtain ⟨hE', hemit⟩ := hE.step hc hw (hm s (by simp)) hs h
    obtain ⟨hEt, htext, hemit'⟩ := ih hE' (by rw [Cursor.Countable, ht]; exact hc) fun u hu => hm u (by simp [hu])
    rw [ht] at hemit' htext
    exact ⟨hEt, htext, hemit.trans hemit'⟩

end State

/-! ### Scans -/

/-- Words hold no newline, and on a newline no boundary is found and the cursor is not asked to stay. -/
structure Language.SparesNewlines (L : Language) : Prop where
  word : L.isWordChar '\n' = false
  declines : ∀ (b : Boundary) (c : Cursor) (n : Notes), c.current? = some '\n' → n.suppressed = false →
    ∃ n', L.predicate b.edge c n = .ok false n' ∧ n'.suppressed = false

private theorem Language.SparesNewlines.firstBoundary {L : Language} (h : L.SparesNewlines) {c : Cursor}
    (hc : c.current? = some '\n') (bs : List Boundary) (n : Notes) (hn : n.suppressed = false) :
    ∃ n', L.firstBoundary c bs n = .ok none n' ∧ n'.suppressed = false := by
  induction bs generalizing n with
  | nil => exact ⟨n.clearMarkers, rfl, hn⟩
  | cons b bs ih =>
    obtain ⟨n₁, hp, hn₁⟩ := h.declines b c n.clearMarkers hc hn
    rw [firstBoundary_of_false hp]
    exact ih n₁ hn₁

namespace State

variable {L : Language} {o : Options} {t : State} {heads : List State} {text : String}

private theorem mindsNewlines_of_sparesNewlines (h : L.SparesNewlines) (s : State) : MindsNewlines L s :=
  fun hn => Or.inl (h.firstBoundary hn Boundary.order s.notes.fresh rfl)

theorem Runs.exact_of_start (hL : L ∈ Bundled.languages ∨ L.SparesNewlines) (hlen : text.length < UInt32.size - 1)
    (h : Runs L o (start text) heads t) :
    Exact o t ∧ t.cursor.text.toList = text.toList ∧
      EmitsAt o text.toList (start text) (heads.flatMap (starts L o)) t := by
  have hc : (start text).cursor.Countable := by
    simpa [Cursor.Countable, start, Cursor.ofString, String.length_toList] using hlen
  have hword : L.isWordChar '\n' = false := by
    rcases hL with hL | hL
    · simp only [Bundled.languages, List.mem_cons, List.not_mem_nil, or_false] at hL
      rcases hL with rfl | rfl | rfl <;> exact isWordChar_newline
    · exact hL.word
  have hm : ∀ u ∈ heads, MindsNewlines L u := by
    intro u hu
    rcases hL with hL | hL
    · exact ((h.honest hL).1 u hu).mindsNewlines
    · exact mindsNewlines_of_sparesNewlines hL u
  obtain ⟨hE, ht, hemit⟩ := h.exact (exact_start o text) hc hword hm
  exact ⟨hE, by rw [ht]; rfl, hemit⟩

end State

open State in
/-- Line and indent are kept as the text defines them.  At every head the line is one more than the number of newlines
passed, the indent measures the blanks after the last of them, and the gathered word stands right before the cursor.
Every leaf and every marker of the result, in the order of its walk, carries the line and indent of the index where it
starts. -/
theorem scan_positions_exact {L : Language} {o : Options} {text : String}
    (hL : L ∈ Bundled.languages ∨ L.SparesNewlines) (hlen : text.length < UInt32.size - 1) :
    (∀ heads s, Runs L o (start text) heads s →
      s.cursor.line.toNat = lineAt text.toList s.cursor.index ∧
      s.cursor.indent = indentAt o text.toList s.cursor.index ∧
      s.word.toList <:+ text.toList.take s.cursor.index) ∧
    ∀ out, scan L o text = .ok out →
      ∃ heads t, Runs L o (start text) heads t ∧ ¬ t.Inside ∧ out = t.finish L ∧
        List.Forall₂ (Frame.IsAt o text.toList) (heads.flatMap (starts L o) ++ t.wordStart)
          (out.root.walk.toList.map Entry.stamp) := by
  constructor
  · intro heads s hr
    obtain ⟨hE, ht, -⟩ := hr.exact_of_start hL hlen
    obtain ⟨hline, hindent⟩ := hE.stamps
    have hword := hE.word
    rw [ht] at hline hindent hword
    exact ⟨hline, hindent, hword⟩
  · intro out h
    obtain ⟨-, -, heads, t, hr, hend, rfl⟩ := scan_eq_ok_iff.1 h
    obtain ⟨hE, ht, hemit⟩ := hr.exact_of_start hL hlen
    have hflush := hE.emitsAt_flush L
    rw [ht] at hflush
    obtain ⟨new, hnew, hat⟩ := hemit.trans hflush
    refine ⟨heads, t, hr, hend, rfl, ?_⟩
    -- the walk of the tree is the log of the events, so its stamps are theirs
    have hwalk : (t.finish L).root.walk.toList.map Entry.stamp = (t.flush L).stamps := by
      rw [show (t.finish L).root = Scope.ofEvents (t.flush L).events from rfl, Scope.walk_ofEvents, Event.log,
        Event.map_stamp_logFrom]
      rfl
    rw [hwalk, hnew]
    exact hat

open State in
theorem scan_positions_exact_python :
    ∃ out heads t, scan Python.language {} "if a:\n\n    b\nc" = .ok out ∧
      Runs Python.language {} (start "if a:\n\n    b\nc") heads t ∧ out = t.finish Python.language ∧
      List.Forall₂ (Frame.IsAt {} "if a:\n\n    b\nc".toList)
        (heads.flatMap (starts Python.language {}) ++ t.wordStart) (out.root.walk.toList.map Entry.stamp) := by
  have hL : Python.language ∈ Bundled.languages := by simp [Bundled.languages]
  have hlen : "if a:\n\n    b\nc".length < UInt32.size - 1 := by decide
  obtain ⟨_, t, _, _, hscan⟩ := scan_bundled (o := {}) hL rfl "if a:\n\n    b\nc"
  obtain ⟨heads, t, hr, -, hout, hat⟩ := (scan_positions_exact (Or.inl hL) hlen).2 _ hscan
  exact ⟨_, heads, t, hscan, hr, hout, hat⟩

end LexTree
