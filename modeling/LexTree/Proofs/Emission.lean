import LexTree.Language.Java
import LexTree.Proofs.History

/-!
# What a step emits

A step adds leaves to the history and, if it handles a scope start or a scope end, at most one opening or closing
between them (`events_step`).  So the depth of the cursor is the number of open scopes at every head, and the tree of a
scan is the log of its run.
-/

namespace LexTree

/-- The scope opened or closed by handling a boundary; a scope end with no scope open closes nothing. -/
def Boundary.scopeEvents (c : Cursor) : Boundary → List Event
  | scopeStart => [.opened c.line c.indent]
  | scopeEnd => if c.depth = 0 then [] else [.closed]
  | stringStart | commentStart => []

namespace State

/-- The tree under construction. -/
def draft (s : State) : Draft := .ofEvents s.events

def found (s : State) (L : Language) : Option Boundary :=
  match L.dispatch s.cursor s.notes.fresh with
  | .ok b _ => b
  | .error _ _ => none

/-- Whether the step that begins here handles a scope start. -/
def opensScope (L : Language) (s : State) : Bool := s.found L = some .scopeStart

/-- The scope opened or closed by the step that begins here. -/
def scopeEvents (s : State) (L : Language) : List Event := (s.found L).elim [] (Boundary.scopeEvents s.cursor)

/-! ### Frame lemmas -/

/-- Settling moves the cursor by one character or not at all. -/
theorem settle_cases (before : Cursor) (after : State) :
    settle before after = after ∧ after.notes.suppressed = true ∧
        (after.cursor.index ≠ before.index ∨ after.cursor.depth < before.depth) ∨
      settle before after = after.moveOn ∧
        (after.notes.suppressed = false ∨ after.cursor.index = before.index ∧ before.depth ≤ after.cursor.depth) := by
  unfold settle
  by_cases hs : after.notes.suppressed = true
  · rw [if_pos hs]
    by_cases hc : after.cursor.index = before.index ∧ before.depth ≤ after.cursor.depth
    · rw [if_pos hc]
      exact Or.inr ⟨rfl, Or.inr hc⟩
    · rw [if_neg hc]
      exact Or.inl ⟨rfl, hs, by omega⟩
  · rw [if_neg hs]
    exact Or.inr ⟨rfl, Or.inl (by simpa using hs)⟩

theorem settle_of_moves {s : State} (before : Cursor) (h : s.notes.suppressed = false) :
    settle before s = s.moveOn := by
  unfold settle
  rw [if_neg (by simp [h])]

theorem settle_of_stays {s : State} {before : Cursor} (h : s.notes.suppressed = true)
    (hi : s.cursor.index ≠ before.index) : settle before s = s := by
  unfold settle
  rw [if_pos h, if_neg fun hs => hi hs.1]

theorem skipRest_of_stays {s : State} {o : Options} {length : Nat} (h : s.notes.suppressed = true) :
    s.skipRest o length = s := if_pos h

@[simp] theorem events_settle (before : Cursor) (after : State) : (settle before after).events = after.events := by
  obtain ⟨h, -⟩ | ⟨h, -⟩ := settle_cases before after <;> rw [h]
  rfl

@[simp] theorem depth_settle (before : Cursor) (after : State) :
    (settle before after).cursor.depth = after.cursor.depth := by
  obtain ⟨h, -⟩ | ⟨h, -⟩ := settle_cases before after <;> rw [h]
  rfl

@[simp] theorem notes_settle (before : Cursor) (after : State) : (settle before after).notes = after.notes := by
  obtain ⟨h, -⟩ | ⟨h, -⟩ := settle_cases before after <;> rw [h]
  rfl

@[simp] theorem events_skipRest (s : State) (o : Options) (length : Nat) :
    (s.skipRest o length).events = s.events := by
  unfold skipRest
  split <;> rfl

@[simp] theorem notes_skipRest (s : State) (o : Options) (length : Nat) : (s.skipRest o length).notes = s.notes := by
  unfold skipRest
  split <;> rfl

@[simp] theorem word_skipRest (s : State) (o : Options) (length : Nat) : (s.skipRest o length).word = s.word := by
  unfold skipRest
  split <;> rfl

@[simp] theorem diagnostics_skipRest (s : State) (o : Options) (length : Nat) :
    (s.skipRest o length).diagnostics = s.diagnostics := by
  unfold skipRest
  split <;> rfl

@[simp] theorem notes_delimiter (s : State) (L : Language) (text : String) :
    (s.delimiter L text).notes = s.notes := by
  unfold delimiter
  split <;> rfl

@[simp] theorem word_delimiter (s : State) (L : Language) (text : String) : (s.delimiter L text).word = s.word := by
  unfold delimiter
  split <;> rfl

@[simp] theorem notes_closeScope (s : State) : s.closeScope.notes = s.notes := by
  unfold closeScope
  split <;> rfl

@[simp] theorem word_closeScope (s : State) : s.closeScope.word = s.word := by
  unfold closeScope
  split <;> rfl

@[simp] theorem notes_flush (s : State) (L : Language) : (s.flush L).notes = s.notes := by
  unfold flush
  split <;> rfl

@[simp] theorem diagnostics_flush (s : State) (L : Language) : (s.flush L).diagnostics = s.diagnostics := by
  unfold flush
  split <;> rfl

@[simp] theorem word_flush (s : State) (L : Language) : (s.flush L).word = "" := by
  unfold flush
  split
  · rename_i h
    exact String.isEmpty_iff.1 h
  · rfl

theorem frame_newline (s : State) (o : Options) :
    (s.newline o).notes = s.notes ∧ (s.newline o).word = s.word ∧ (s.newline o).diagnostics = s.diagnostics := by
  have hcross : ∀ s : State, (s.crossNewline o).notes = s.notes ∧ (s.crossNewline o).word = s.word ∧
      (s.crossNewline o).diagnostics = s.diagnostics := by
    intro s
    simp only [crossNewline]
    split <;> split <;> exact ⟨rfl, rfl, rfl⟩
  fun_induction newline s o with
  | case1 s next hp ih =>
    obtain ⟨hn, hw, hd⟩ := hcross s
    exact ⟨ih.1.trans hn, ih.2.1.trans hw, ih.2.2.trans hd⟩
  | case2 s next hp => exact hcross s

theorem frame_plain (s : State) (L : Language) (o : Options) :
    (s.plain L o).notes = s.notes ∧ (s.plain L o).diagnostics = s.diagnostics := by
  have hflush : (s.flush L).notes = s.notes ∧ (s.flush L).diagnostics = s.diagnostics := by simp
  unfold plain
  split
  · exact ⟨rfl, rfl⟩
  · split
    · exact ⟨rfl, rfl⟩
    · simp only
      split
      · obtain ⟨hn, -, hd⟩ := frame_newline (s.flush L) o
        exact ⟨hn.trans hflush.1, hd.trans hflush.2⟩
      · split <;> exact hflush

/-! ### Leaves -/

/-- Only leaves are emitted on the way from one state to the other. -/
def EmitsLeaves (s s' : State) : Prop :=
  ∃ leaves : List Leaf, s'.events.toList = s.events.toList ++ leaves.map Event.leaf

private theorem EmitsLeaves.of_events_eq {s s' : State} (h : s'.events = s.events) : EmitsLeaves s s' :=
  ⟨[], by simp [h]⟩

private theorem EmitsLeaves.trans {s s' s'' : State} (h : EmitsLeaves s s') (h' : EmitsLeaves s' s'') :
    EmitsLeaves s s'' := by
  obtain ⟨leaves, h⟩ := h
  obtain ⟨leaves', h'⟩ := h'
  exact ⟨leaves ++ leaves', by rw [h', h, List.map_append, List.append_assoc]⟩

private theorem emitsLeaves_push (s : State) (leaf : Leaf) :
    EmitsLeaves s { s with events := s.events.push (.leaf leaf) } :=
  ⟨[leaf], by simp⟩

private theorem emitsLeaves_emit (s : State) (rule : Rule) (name text : String) :
    EmitsLeaves s (s.emit rule name text) :=
  emitsLeaves_push s _

private theorem emitsLeaves_flush (s : State) (L : Language) : EmitsLeaves s (s.flush L) := by
  unfold flush
  split
  · exact .of_events_eq rfl
  · exact emitsLeaves_push s _

private theorem emitsLeaves_delimiter (s : State) (L : Language) (text : String) :
    EmitsLeaves s (s.delimiter L text) := by
  unfold delimiter
  split
  · exact .of_events_eq rfl
  · exact emitsLeaves_emit ..

/-- The leaves of a newline and of the blanks after it. -/
def crossedLeaves (s : State) (o : Options) : List Leaf :=
  let run := s.cursor.blankRun (s.cursor.index + 1)
  (if o.includeNewlines then [⟨s.cursor.line, s.cursor.indent, .other, SymbolicName.newline, "\n"⟩] else []) ++
    if o.includeWhitespace && !run.isEmpty then
      [⟨s.cursor.line + 1, o.measureIndent run, .other, SymbolicName.whitespace, String.ofList run⟩]
    else []

theorem events_crossNewline (s : State) (o : Options) :
    (s.crossNewline o).events.toList = s.events.toList ++ (s.crossedLeaves o).map Event.leaf := by
  simp only [crossNewline, crossedLeaves]
  split <;> split <;> simp_all [emit]

/-- Crossing a newline, as one update. -/
theorem crossNewline_eq (s : State) (o : Options) :
    s.crossNewline o =
      { s with
        cursor := (s.crossNewline o).cursor
        events := s.events ++ ((s.crossedLeaves o).map Event.leaf).toArray } := by
  have hevents : (s.crossNewline o).events = s.events ++ ((s.crossedLeaves o).map Event.leaf).toArray := by
    apply Array.toList_inj.1
    rw [events_crossNewline, Array.toList_append]
  rw [← hevents]
  simp only [crossNewline]
  split <;> split <;> rfl

private theorem emitsLeaves_crossNewline (s : State) (o : Options) : EmitsLeaves s (s.crossNewline o) :=
  ⟨s.crossedLeaves o, events_crossNewline s o⟩

private theorem emitsLeaves_newline (s : State) (o : Options) : EmitsLeaves s (s.newline o) := by
  fun_induction newline s o with
  | case1 s next h ih => exact (emitsLeaves_crossNewline s o).trans ih
  | case2 s next h => exact emitsLeaves_crossNewline s o

private theorem emitsLeaves_plain (s : State) (L : Language) (o : Options) : EmitsLeaves s (s.plain L o) := by
  unfold plain
  split
  · exact .of_events_eq rfl
  · split
    · exact .of_events_eq rfl
    · refine (emitsLeaves_flush s L).trans ?_
      simp only
      split
      · exact emitsLeaves_newline ..
      · split
        · exact .of_events_eq rfl
        · exact emitsLeaves_emit ..

theorem events_verbatim {s s' : State} {o : Options} {ends : Predicate} {name : String} {leaf : Leaf}
    (h : s.verbatim o ends name = .ok leaf s') : s'.events = s.events := by
  unfold verbatim at h
  simp only at h
  split at h
  · cases h
  · split at h
    all_goals
      injection h with _ h
      subst h
      split <;> rfl

private theorem emitsLeaves_construct {s s' : State} {o : Options} {ends : Predicate} {name : String} {included : Bool}
    (h : s.construct o ends name included = .ok () s') : EmitsLeaves s s' := by
  unfold construct at h
  split at h
  · cases h
  · rename_i leaf s₁ hv
    injection h with _ h
    subst h
    refine EmitsLeaves.trans (.of_events_eq (events_verbatim hv)) ?_
    split
    · exact (emitsLeaves_push s₁ leaf).trans (.of_events_eq (events_skipRest ..))
    · exact .of_events_eq (events_skipRest ..)

/-! ### The history of a step -/

variable {L : Language} {o : Options} {s s' t : State} {heads : List State}

theorem found_of_dispatch {b : Option Boundary} {notes : Notes}
    (h : L.dispatch s.cursor s.notes.fresh = .ok b notes) : s.found L = b := by
  unfold found
  rw [h]

theorem dispatch_of_found {b : Boundary} (h : s.found L = some b) :
    ∃ n, L.dispatch s.cursor s.notes.fresh = .ok (some b) n := by
  unfold found at h
  split at h
  · rename_i n hd
    exact ⟨n, by rw [hd, h]⟩
  · cases h

theorem draft_of_events {new : List Event} (h : s'.events.toList = s.events.toList ++ new) :
    s'.draft = new.foldl Draft.apply s.draft := by
  rw [draft, draft, Draft.ofEvents, Draft.ofEvents, ← Array.foldl_toList, ← Array.foldl_toList, h, List.foldl_append]

theorem events_closeScope (s : State) :
    s.closeScope.events.toList = s.events.toList ++ Boundary.scopeEnd.scopeEvents s.cursor := by
  unfold closeScope Boundary.scopeEvents
  split
  · rename_i hd
    simp [hd, report]
  · rename_i hd
    simp [hd]

theorem cursor_closeScope (s : State) : s.closeScope.cursor = { s.cursor with depth := s.cursor.depth - 1 } := by
  unfold closeScope
  split
  · rename_i hd
    show s.cursor = _
    rw [show s.cursor.depth - 1 = s.cursor.depth by omega]
  · rename_i hd
    rw [hd]
    rfl

private theorem events_boundary {b : Boundary} (h : s.boundary L o b = .ok () s') :
    (∃ before after : List Leaf, s'.events.toList =
      s.events.toList ++ before.map Event.leaf ++ b.scopeEvents s.cursor ++ after.map Event.leaf) ∧
    s'.cursor.depth = (b.scopeEvents s.cursor).foldl Event.depthAfter s.cursor.depth := by
  cases b with
  | stringStart | commentStart =>
    obtain ⟨leaves, hl⟩ := emitsLeaves_construct h
    exact ⟨⟨leaves, [], by simp [hl, Boundary.scopeEvents]⟩, (reaches_construct h).1.depth⟩
  | scopeStart =>
    obtain rfl := eq_of_scopeStart h
    obtain ⟨leaves, hl⟩ := emitsLeaves_delimiter s L s.notes.startMarker
    refine ⟨⟨leaves, [], ?_⟩, ?_⟩
    · simp [openScope, hl, Boundary.scopeEvents]
    · rw [(reaches_skipRest ..).depth]
      simp [openScope, Boundary.scopeEvents, Event.depthAfter]
  | scopeEnd =>
    obtain rfl := eq_of_scopeEnd h
    obtain ⟨leaves, hl⟩ := emitsLeaves_delimiter s.closeScope L s.notes.endMarker
    refine ⟨⟨[], leaves, ?_⟩, ?_⟩
    · rw [events_skipRest, hl, events_closeScope]
      simp
    · rw [(reaches_skipRest ..).depth, cursor_delimiter, cursor_closeScope]
      simp only [Boundary.scopeEvents]
      split
      · rename_i hd
        rw [hd]
        rfl
      · rfl

/-- A scope closed by a step that is asked to stay leaves the cursor where it is. -/
theorem settle_of_closed (hn : s.notes.suppressed = true) (hd : s.cursor.depth ≠ 0)
    (h : s.boundary L o .scopeEnd = .ok () s') :
    settle s.cursor s' = s' ∧ s' = s.closeScope.delimiter L s.notes.endMarker := by
  have hnotes : (s.closeScope.delimiter L s.notes.endMarker).notes.suppressed = true := by
    rw [notes_delimiter, notes_closeScope, hn]
  have hs' : s' = s.closeScope.delimiter L s.notes.endMarker := by
    rw [eq_of_scopeEnd h, skipRest_of_stays hnotes]
  refine ⟨?_, hs'⟩
  rw [hs', settle, if_pos hnotes, if_neg]
  rintro ⟨-, hle⟩
  rw [cursor_delimiter, cursor_closeScope] at hle
  simp only at hle
  omega

/-- A step that closes a scope without a delimiter leaves the cursor where it is. -/
theorem step_of_dedented {n : Notes} (found : L.dispatch s.cursor s.notes.fresh = .ok (some .scopeEnd) n)
    (stays : n.suppressed = true) (silent : n.endMarker = "") (inner : s.cursor.depth ≠ 0) :
    s.step L o = .ok () (flush { s with notes := n } L).closeScope := by
  have hb : boundary (flush { s with notes := n } L) L o .scopeEnd =
      .ok () ((flush { s with notes := n } L).closeScope.delimiter L (flush { s with notes := n } L).notes.endMarker
        |>.skipRest o (flush { s with notes := n } L).notes.endMarker.length) := rfl
  obtain ⟨hsettle, hstate⟩ :=
    settle_of_closed (by rw [notes_flush]; exact stays) (by rw [cursor_flush]; exact inner) hb
  rw [cursor_flush] at hsettle
  rw [step_eq_of_some found hb, hsettle, hstate, notes_flush, silent]
  rfl

/-- A step emits leaves, the scope it opens or closes, and leaves again. -/
theorem events_step (h : s.step L o = .ok () s') :
    (∃ before after : List Leaf, s'.events.toList =
      s.events.toList ++ before.map Event.leaf ++ s.scopeEvents L ++ after.map Event.leaf) ∧
    s'.cursor.depth = (s.scopeEvents L).foldl Event.depthAfter s.cursor.depth := by
  unfold scopeEvents
  obtain ⟨notes, hd, rfl⟩ | ⟨b, notes, s₁, hd, hb, rfl⟩ := step_cases h
  · obtain ⟨leaves, hl⟩ := emitsLeaves_plain { s with notes } L o
    rw [found_of_dispatch hd, events_settle, depth_settle, (reaches_plain { s with notes } L o).depth, hl]
    exact ⟨⟨leaves, [], by simp⟩, rfl⟩
  · obtain ⟨word, hf⟩ := emitsLeaves_flush { s with notes } L
    obtain ⟨⟨before, after, he⟩, hdepth⟩ := events_boundary hb
    rw [found_of_dispatch hd, events_settle, depth_settle]
    rw [cursor_flush] at he hdepth
    exact ⟨⟨word ++ before, after, by simp [he, hf]⟩, hdepth⟩

/-! ### Whole runs -/

private theorem isOpened_scopeEvents (L : Language) (s : State) :
    (s.scopeEvents L).countP Event.isOpened = if opensScope L s then 1 else 0 := by
  unfold scopeEvents opensScope
  rcases s.found L with _ | _ | _ | _ | _
  all_goals simp [Boundary.scopeEvents, Event.isOpened]

/-- A step logs leaves at the depth before it, the scope it opens, and leaves at the depth after it. -/
theorem log_step (h : s.step L o = .ok () s') (hs : s.cursor.depth = s.draft.nested.length) :
    s'.cursor.depth = s'.draft.nested.length ∧
    ∃ before after : List Leaf, Event.log s'.events.toList =
      Event.log s.events.toList ++ before.map (.leaf s.cursor.depth) ++
        (if opensScope L s then [.scope s.cursor.depth s.cursor.line s.cursor.indent Scope.unknownLabel] else []) ++
        after.map (.leaf s'.cursor.depth) := by
  obtain ⟨⟨before, after, he⟩, hd⟩ := events_step h
  -- the depth of the cursor is the depth that the log counts
  rw [draft, Draft.length_nested_ofEvents] at hs
  have hscope : Event.logFrom s.cursor.depth (s.scopeEvents L) =
      if opensScope L s then [.scope s.cursor.depth s.cursor.line s.cursor.indent Scope.unknownLabel] else [] := by
    unfold scopeEvents opensScope
    rcases s.found L with _ | _ | _ | _ | _
    all_goals simp [Boundary.scopeEvents, Event.logFrom, Event.entries]
    split <;> simp [Event.logFrom, Event.entries]
  constructor
  · rw [draft, Draft.length_nested_ofEvents, he]
    simp only [List.foldl_append, Event.foldl_depthAfter_leaves, ← hs, hd]
  · refine ⟨before, after, ?_⟩
    rw [he, Event.log, Event.logFrom_append, Event.logFrom_append, Event.logFrom_append]
    simp only [List.foldl_append, Event.foldl_depthAfter_leaves, Event.logFrom_leaves, ← hs, ← hd, hscope]
    rfl

/-- The depth of the cursor is the number of open scopes, at every head. -/
theorem Runs.depth_eq {text : String} (h : Runs L o (start text) heads t) :
    (∀ u ∈ heads, u.cursor.depth = u.draft.nested.length) ∧ t.cursor.depth = t.draft.nested.length :=
  h.invariant rfl fun _ _ hs _ hstep => (log_step hstep hs).1

private theorem Runs.events_isPrefix (h : Runs L o s heads t) : s.events.toList <+: t.events.toList := by
  refine (h.invariant (P := fun u => s.events.toList <+: u.events.toList) (List.prefix_refl _) ?_).2
  intro u u' hu _ hstep
  obtain ⟨⟨before, after, he⟩, -⟩ := events_step hstep
  rw [he, List.append_assoc, List.append_assoc]
  exact hu.trans (List.prefix_append _ _)

/-- A run opens as many scopes as it handles scope starts. -/
private theorem Runs.countP_isOpened (h : Runs L o s heads t) :
    t.events.toList.countP Event.isOpened =
      s.events.toList.countP Event.isOpened + heads.countP (opensScope L) := by
  have hleaf : ∀ leaves : List Leaf, (leaves.map Event.leaf).countP Event.isOpened = 0 := by
    intro leaves
    rw [List.countP_eq_zero]
    simp [Event.isOpened]
  induction h with
  | done s => rfl
  | @step s s' t heads hs h rest ih =>
    obtain ⟨⟨before, after, he⟩, -⟩ := events_step h
    rw [ih, he, List.countP_cons]
    simp only [List.countP_append, hleaf, isOpened_scopeEvents]
    omega

private theorem flush_events_isPrefix (s : State) (L : Language) : s.events.toList <+: (s.flush L).events.toList := by
  obtain ⟨leaves, h⟩ := emitsLeaves_flush s L
  rw [h]
  exact List.prefix_append _ _

private theorem countP_isOpened_flush (s : State) (L : Language) :
    (s.flush L).events.toList.countP Event.isOpened = s.events.toList.countP Event.isOpened := by
  obtain ⟨leaves, h⟩ := emitsLeaves_flush s L
  rw [h, List.countP_append, Nat.add_eq_left, List.countP_eq_zero]
  simp [Event.isOpened]

end State

open State in
/-- The tree of a scan is the history of its run.  Its preorder walk is the log of the run, entry for entry; it is the
tree that pushing markers eagerly gives; its leaves come in the order of emission, and it has one marker for each
scope start handled.  The log is written step by step, under the depth of the cursor, which is always the number of
open scopes. -/
theorem scan_walk_eq_log {L : Language} {o : Options} {text : String} {out : Output} (h : scan L o text = .ok out) :
    ∃ heads t, Runs L o (start text) heads t ∧ ¬ t.Inside ∧
      out.root.walk.toList = Event.log (t.flush L).events.toList ∧
      out.root = Scope.ofEventsEagerly (t.flush L).events.toList ∧
      out.root.flatten.toList = (t.flush L).events.toList.filterMap Event.leaf? ∧
      out.root.walk.toList.countP Entry.isScope = heads.countP (opensScope L) ∧
      (∀ u ∈ heads ++ [t], u.cursor.depth = u.draft.nested.length ∧
        u.events.toList <+: (t.flush L).events.toList) ∧
      ∀ u ∈ heads, ∀ u', u.step L o = .ok () u' →
        ∃ before after : List Leaf, Event.log u'.events.toList =
          Event.log u.events.toList ++ before.map (.leaf u.cursor.depth) ++
            (if opensScope L u then [.scope u.cursor.depth u.cursor.line u.cursor.indent Scope.unknownLabel] else []) ++
            after.map (.leaf u'.cursor.depth) := by
  obtain ⟨-, -, heads, t, hr, ht, rfl⟩ := scan_eq_ok_iff.1 h
  obtain ⟨hheads, hlast⟩ := hr.depth_eq
  refine ⟨heads, t, hr, ht, Scope.walk_ofEvents _, Scope.ofEvents_eq_ofEventsEagerly _, Scope.flatten_ofEvents _,
    ?_, ?_, ?_⟩
  · have hc := hr.countP_isOpened
    rw [show (t.finish L).root = Scope.ofEvents (t.flush L).events from rfl, Scope.walk_ofEvents, Event.log,
      Event.countP_isScope_logFrom, countP_isOpened_flush, hc]
    simp [start]
  · intro u hu
    rcases List.mem_append.1 hu with hu | hu
    · obtain ⟨before, after, -, -, ha⟩ := hr.of_mem hu
      exact ⟨hheads u hu, ha.events_isPrefix.trans (flush_events_isPrefix t L)⟩
    · rw [List.mem_singleton.1 hu]
      exact ⟨hlast, flush_events_isPrefix t L⟩
  · intro u hu u' hstep
    exact (log_step hstep (hheads u hu)).2

open State in
theorem scan_walk_eq_log_java :
    ∃ out heads t, scan Java.language {} "\x7d\x7ba" = .ok out ∧ out.diagnostics.size = 1 ∧
      Runs Java.language {} (start "\x7d\x7ba") heads t ∧
      out.root.walk.toList = Event.log (t.flush Java.language).events.toList ∧
      out.root.walk.toList.countP Entry.isScope = heads.countP (opensScope Java.language) := by
  have hsize : (scan Java.language {} "\x7d\x7ba").toOption.map (fun out => out.diagnostics.size) = some 1 := by
    decide +kernel
  cases h : scan Java.language {} "\x7d\x7ba" with
  | error e =>
    rw [h] at hsize
    cases hsize
  | ok out =>
    rw [h] at hsize
    obtain ⟨heads, t, hr, -, hwalk, -, -, hcount, -⟩ := scan_walk_eq_log h
    exact ⟨out, heads, t, rfl, Option.some.inj hsize, hr, hwalk, hcount⟩

end LexTree
