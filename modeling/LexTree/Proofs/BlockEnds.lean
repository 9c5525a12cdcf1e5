import LexTree.Proofs.Blocks
import LexTree.Proofs.Progress

/-!
# Where Python blocks end

A block ends at the first content of a line, or right behind a string or comment that holds a newline: such a construct
changes the line and the indent without looking for the content of the new line (`blocks_end`).  Every other move keeps
the line, or crosses all blank lines up to the next content (`firstContent_newline`).  Behind a construct a block may
end at a blank, so a line of blanks after a comment ends blocks that go on (`block_ends_at_blank`).
-/

namespace LexTree

/-- A newline lies between two indices of a text. -/
def NewlineBetween (text : Array Char) (i j : Nat) : Prop := ∃ e, i ≤ e ∧ e < j ∧ text[e]? = some '\n'

private theorem NewlineBetween.mono {text : Array Char} {i j i' j' : Nat} (h : NewlineBetween text i j) (hi : i' ≤ i)
    (hj : j ≤ j') : NewlineBetween text i' j' := by
  obtain ⟨e, hie, hej, he⟩ := h
  exact ⟨e, Nat.le_trans hi hie, Nat.lt_of_lt_of_le hej hj, he⟩

namespace Cursor

/-- The cursor stands on a character that is no blank and no newline, and before it on its line are only blanks. -/
structure FirstContent (c : Cursor) : Prop where
  content : ∃ ch, c.current? = some ch ∧ isBlank ch = false ∧ ch ≠ '\n'
  first : ∃ j, j < c.index ∧ c.text[j]? = some '\n' ∧
    ∀ k, j < k → k < c.index → ∃ ch, c.text[k]? = some ch ∧ isBlank ch = true

/-- A way forward that keeps the line and the indent, or passes a newline. -/
structure KeepsLine (c d : Cursor) : Prop extends c.Reaches d where
  line : d.frame = c.frame ∨ NewlineBetween c.text c.index d.index

variable {o : Options} {c d e : Cursor}

private theorem KeepsLine.refl (c : Cursor) : c.KeepsLine c := ⟨.refl c, Or.inl rfl⟩

private theorem KeepsLine.trans (h : c.KeepsLine d) (h' : d.KeepsLine e) : c.KeepsLine e := by
  refine ⟨h.toReaches.trans h'.toReaches, ?_⟩
  rcases h.line with heq | hnl
  · rcases h'.line with heq' | hnl'
    · exact Or.inl (heq'.trans heq)
    · rw [h.text] at hnl'
      exact Or.inr (hnl'.mono h.index (Nat.le_refl _))
  · exact Or.inr (hnl.mono (Nat.le_refl _) h'.index)

private theorem keepsLine_stepQuiet (o : Options) (c : Cursor) : c.KeepsLine (c.stepQuiet o) := by
  refine ⟨reaches_stepQuiet o c, ?_⟩
  rw [stepQuiet]
  by_cases hn : (c.advance o).current? = some '\n'
  · rw [dif_pos hn]
    -- the newline is the character after the cursor
    have hlt := index_lt_stepQuiet o (c.advance o)
    rw [current?, text_advance, index_advance] at hn
    rw [index_advance] at hlt
    exact Or.inr ⟨c.index + 1, by omega, hlt, hn⟩
  · rw [dif_neg hn]
    refine Or.inl ?_
    simp only [advance] at hn ⊢
    split
    · rename_i h
      rw [if_pos h] at hn
      exact absurd h hn
    · rfl

private theorem keepsLine_stepsQuiet (o : Options) (n : Nat) (c : Cursor) : c.KeepsLine (c.stepsQuiet o n) := by
  induction n generalizing c with
  | zero => exact .refl c
  | succ n ih => exact (keepsLine_stepQuiet o c).trans (ih _)

private theorem keepsLine_readBody {ends : Predicate} {line : UInt32} {text : String} {n n' : Notes} {body : Body}
    (h : readBody o ends c line text n = .ok body n') : c.KeepsLine body.cursor := by
  have keep : ∀ r r' : Reading, c.KeepsLine r.cursor → Reading.Turn o ends r r' → c.KeepsLine r'.cursor := by
    rintro r r' hr ⟨-, -, -, -, rfl⟩
    exact hr.trans (keepsLine_stepQuiet o r.cursor)
  obtain ⟨_, hbody, -⟩ := Reading.of_readBody keep (r := ⟨c, line, text, n⟩) (.refl c) h
  exact hbody

end Cursor

/-! ### Constructs -/

namespace State

variable {L : Language} {o : Options} {s s' : State} {heads : List State} {t : State}

private theorem keepsLine_skipRest (s : State) (o : Options) (length : Nat) :
    s.cursor.KeepsLine (s.skipRest o length).cursor := by
  unfold skipRest
  split
  · exact .refl _
  · exact Cursor.keepsLine_stepsQuiet ..

@[simp] theorem frame_settle (before : Cursor) (s : State) : (settle before s).cursor.frame = s.cursor.frame := by
  obtain ⟨he, -⟩ | ⟨he, -⟩ := settle_cases before s <;> rw [he]
  rfl

private theorem keepsLine_settle (before : Cursor) (s : State) : s.cursor.KeepsLine (settle before s).cursor := by
  refine ⟨?_, Or.inl (frame_settle before s)⟩
  obtain ⟨he, -⟩ | ⟨he, -⟩ := settle_cases before s <;> rw [he]
  · exact .refl _
  · exact ⟨rfl, Nat.le_succ _, rfl⟩

/-- A construct is read from the cursor to the end of its body; then the cursor goes on to where the step ends. -/
private theorem construct_way {ends : Predicate} {name : String} {included : Bool}
    (h : s.construct o ends name included = .ok () s') :
    ∃ body notes, readBody o ends (s.inside o) s.cursor.line "" s.notes = .ok body notes ∧
      s.cursor.KeepsLine body.cursor ∧ body.cursor.KeepsLine s'.cursor := by
  obtain ⟨leaf, s₁, hv, rfl⟩ := construct_cases h
  obtain ⟨body, notes, hb, -, -, hcases⟩ := verbatim_cases hv
  have hbody : s₁.cursor = body.cursor := by
    rcases hcases with ⟨-, -, rfl⟩ | ⟨-, -, rfl⟩
    · rfl
    · split <;> rfl
  refine ⟨body, notes, hb, ?_, ?_⟩
  · exact (Cursor.keepsLine_stepsQuiet o _ s.cursor).trans (Cursor.keepsLine_readBody hb)
  · rw [← hbody]
    split
    · exact keepsLine_skipRest { s₁ with events := s₁.events.push (.leaf leaf) } o _
    · exact keepsLine_skipRest s₁ o _

/-- The way of a step that finds a construct. -/
private theorem step_way {b : Boundary} {n : Notes} (hb : b.isConstruct = true)
    (found : L.dispatch s.cursor s.notes.fresh = .ok (some b) n) (h : s.step L o = .ok () s') :
    ∃ d line body notes, readBody o (L.predicate b.closing) d line "" n = .ok body notes ∧ line = s.cursor.line ∧
      s.cursor.KeepsLine body.cursor ∧ body.cursor.KeepsLine s'.cursor := by
  obtain ⟨s₁, hs₁, rfl⟩ := boundary_of_step found h
  obtain ⟨body, notes, hbody, hto, hfrom⟩ := construct_way (boundary_construct hb ▸ hs₁)
  rw [notes_flush] at hbody
  rw [cursor_flush] at hbody hto
  exact ⟨_, _, body, notes, hbody, rfl, hto, hfrom.trans (keepsLine_settle ..)⟩

/-! ### Newlines -/

theorem cursor_plain_of_ne {ch : Char} (h : s.cursor.current? = some ch) (hn : ch ≠ '\n') :
    (s.plain L o).cursor = s.cursor := by
  simp only [plain, h, if_neg hn]
  split
  · rfl
  · split <;> exact cursor_flush s L

theorem plain_of_newline (hw : L.isWordChar '\n' = false) (h : s.cursor.current? = some '\n') :
    s.plain L o = (s.flush L).newline o := by
  simp [plain, h, hw]

/-- Crossing newlines leads to the first content of a line, or past the text. -/
theorem firstContent_newline (hn : s.cursor.current? = some '\n') (hin : (s.newline o).moveOn.Inside) :
    (s.newline o).moveOn.cursor.FirstContent := by
  fun_induction newline s o with
  | case1 s next hp ih => exact ih hp hin
  | case2 s next hp =>
    have htext : next.cursor.text = s.cursor.text := text_crossNewline s o
    have hindex : next.cursor.index + 1 = blankRunEnd s.cursor.text (s.cursor.index + 1) := index_crossNewline s o
    have hle := le_blankRunEnd s.cursor.text (s.cursor.index + 1)
    refine ⟨?_, s.cursor.index, ?_, ?_, ?_⟩
    · -- the run of blanks ends at the character after the cursor
      obtain ⟨ch, hch⟩ : ∃ ch, next.moveOn.cursor.current? = some ch := ⟨_, Array.getElem?_eq_getElem hin⟩
      refine ⟨ch, hch, ?_, fun h => hp (by rw [← h]; exact hch)⟩
      have hend : s.cursor.text[blankRunEnd s.cursor.text (s.cursor.index + 1)]? = some ch := by
        rw [← hindex, ← htext]
        exact hch
      exact not_blank_of_blankRunEnd hend
    · show s.cursor.index < next.cursor.index + 1
      omega
    · show next.cursor.text[s.cursor.index]? = some '\n'
      rw [htext]
      exact hn
    · intro k hlo hhi
      have hhi : k < next.cursor.index + 1 := hhi
      rw [hindex] at hhi
      obtain ⟨ch, hch, hb⟩ := blank_of_lt_blankRunEnd hlo hhi
      exact ⟨ch, by rw [← hch, ← htext]; rfl, hb⟩

end State

/-! ### Blocks -/

namespace Python

open State

variable {o : Options} {text : String} {heads : List State} {u u' : State}

/-- The cursor stands right behind a string or comment that one of the heads has found and that holds a newline. -/
def Behind (o : Options) (heads : List State) (u : State) : Prop :=
  ∃ v ∈ heads, ∃ b v', v.found language = some b ∧ b.isConstruct = true ∧ v.step language o = .ok () v' ∧
    v'.cursor.index = u.cursor.index ∧ NewlineBetween u.cursor.text v.cursor.index u.cursor.index

/-- A block ends here only if the cursor is at the first content of a line or behind a construct with a newline. -/
def EndsRightly (o : Options) (heads : List State) (u : State) : Prop :=
  u.Inside → closesBlock u.cursor u.notes = true → u.cursor.FirstContent ∨ Behind o heads u

theorem closesBlock_congr {c d : Cursor} {n n' : Notes} (hf : d.frame = c.frame)
    (hs : n'.scratch.scope.frames = n.scratch.scope.frames) : closesBlock d n' = closesBlock c n := by
  have hline : d.line = c.line := congrArg Frame.line hf
  have hindent : d.indent = c.indent := congrArg Frame.indent hf
  simp only [closesBlock, Scratch.topFrame?, Scratch.slot, hs, hline, hindent]

/-- Behind a construct the line is the same as before, or the construct holds a newline. -/
private theorem behind_of_construct {b : Boundary} {n : Notes} (hb : b.isConstruct = true)
    (found : language.dispatch u.cursor u.notes.fresh = .ok (some b) n) (hstep : u.step language o = .ok () u')
    (hnl : NewlineBetween u.cursor.text u.cursor.index u'.cursor.index) : Behind o (heads ++ [u]) u' := by
  refine ⟨u, by simp, b, u', found_of_dispatch found, hb, hstep, rfl, ?_⟩
  rw [text_step hstep]
  exact hnl

theorem scratch_step (hr : Runs language o (start text) heads u) {b : Option Boundary} {n : Notes}
    (found : language.dispatch u.cursor u.notes.fresh = .ok b n) (hstep : u.step language o = .ok () u') :
    u'.notes.scratch = n.scratch := by
  obtain ⟨u₁, b', n', hstep', found', hn⟩ := (hr.lockstep.2.honest hr.depth_eq.2).step_ok o
  rw [hstep] at hstep'
  rw [found] at found'
  cases hstep'
  cases found'
  exact hn

/-- A string that does not pass a newline leaves open the block in which it stands. -/
private theorem endsRightly_of_string (hr : Runs language o (start text) heads u) {quote : String}
    (hblock : closesBlock u.cursor u.notes = false)
    (found : language.dispatch u.cursor u.notes.fresh =
      .ok (some .stringStart) (u.notes.fresh.clearMarkers.mark quote quote))
    (hstep : u.step language o = .ok () u') : EndsRightly o (heads ++ [u]) u' := by
  intro _ hends
  obtain ⟨-, -, body, -, -, -, hto, hfrom⟩ := step_way rfl found hstep
  rcases (hto.trans hfrom).line with hframe | hnl
  · rw [closesBlock_congr hframe (n := u.notes) (by rw [scratch_step hr found hstep]; rfl), hblock] at hends
    cases hends
  · exact Or.inr (behind_of_construct rfl found hstep hnl)

/-- A comment passes a newline, or takes the rest of the text. -/
private theorem endsRightly_of_comment
    (found : language.dispatch u.cursor u.notes.fresh = .ok (some .commentStart)
      { u.notes.fresh.clearMarkers.mark "#" "\n" with
        scratch := u.notes.fresh.scratch.markLine .comment u.cursor.line })
    (hstep : u.step language o = .ok () u') : EndsRightly o (heads ++ [u]) u' := by
  intro hin _
  obtain ⟨d, line, body, notes, hbody, -, hto, hfrom⟩ := step_way rfl found hstep
  have hasked : ∀ e, language.predicate Boundary.commentStart.closing e
      { u.notes.fresh.clearMarkers.mark "#" "\n" with
        scratch := u.notes.fresh.scratch.markLine .comment u.cursor.line } = .ok (e.line ≠ u.cursor.line) _ :=
    fun e => rfl
  obtain ⟨body', hbody', htest, hcut⟩ := readBody_of_test (o := o) hasked d line ""
  rw [hbody] at hbody'
  cases hbody'
  refine Or.inr (behind_of_construct rfl found hstep ?_)
  rcases hto.line with hframe | hnl
  · -- on the same line the end is not found, so the text has run out
    have hline : body.cursor.line = u.cursor.line := congrArg Frame.line hframe
    have hnone : body.cursor.current? = none := hcut (by rw [← htest]; simp [hline])
    have hsize : body.cursor.text.size ≤ body.cursor.index := by simpa [Cursor.current?] using hnone
    have hindex := hfrom.index
    have hin : u'.cursor.index < u'.cursor.text.size := hin
    rw [hfrom.text] at hin
    omega
  · exact hnl.mono (Nat.le_refl _) hfrom.index

/-- The colon of a block stands on its line. -/
private theorem endsRightly_of_colon (hr : Runs language o (start text) heads u)
    (found : language.dispatch u.cursor u.notes.fresh = .ok (some .scopeStart)
      { u.notes.fresh.clearMarkers with
        startMarker := ":", scratch := u.notes.fresh.scratch.pushFrame .scope u.cursor.frame })
    (hstep : u.step language o = .ok () u') : EndsRightly o (heads ++ [u]) u' := by
  intro _ hends
  have hframe : u'.cursor.frame = u.cursor.frame := by
    obtain ⟨u₁, hb, rfl⟩ := boundary_of_step found hstep
    -- nothing is left to skip behind a colon
    have hskip : ∀ s : State, (s.skipRest o ":".length).cursor = s.cursor := by
      intro s
      unfold skipRest
      split <;> rfl
    rw [frame_settle, eq_of_scopeStart hb, notes_flush]
    simp only
    rw [hskip, openScope, cursor_delimiter, cursor_flush]
    rfl
  have hline : u'.cursor.line = u.cursor.line := congrArg Frame.line hframe
  have hscratch := scratch_step hr found hstep
  simp only [closesBlock, hscratch, hline, Scratch.topFrame?, Scratch.slot, Scratch.pushFrame, Scratch.setSlot] at hends
  simp [Cursor.frame] at hends

/-- Where a block has ended, the next one ends at the same place. -/
private theorem EndsRightly.closed (h : EndsRightly o heads u) (hu : u.Inside)
    (hr : Runs language o (start text) heads u)
    {n : Notes} (hblock : closesBlock u.cursor u.notes = true) (hf : u.notes.scratch.scope.frames ≠ [])
    (found : language.dispatch u.cursor u.notes.fresh = .ok (some .scopeEnd) n) (stays : n.suppressed = true)
    (silent : n.endMarker = "") (hstep : u.step language o = .ok () u') : EndsRightly o (heads ++ [u]) u' := by
  intro _ _
  have hcur : u'.cursor = { u.cursor with depth := u.cursor.depth - 1 } := by
    obtain ⟨frame, frames, hf⟩ := List.exists_cons_of_ne_nil hf
    rw [step_of_dedented found stays silent (hr.lockstep.2.depth_ne_zero hr.depth_eq.2 hf)] at hstep
    injection hstep with _ hstep
    rw [← hstep, cursor_closeScope, cursor_flush]
  rcases h hu hblock with ⟨hcontent, hfirst⟩ | ⟨v, hv, b, v', hfound, hb, hvstep, hindex, hnl⟩
  · rw [hcur]
    exact Or.inl ⟨hcontent, hfirst⟩
  · refine Or.inr ⟨v, List.mem_append_left _ hv, b, v', hfound, hb, hvstep, ?_⟩
    rw [hcur]
    exact ⟨hindex, hnl⟩

/-- A plain character is on the line that goes on, or it is a newline that leads to the first content of a line. -/
private theorem endsRightly_of_plain (hu : u.Inside) {n : Notes} (hblock : closesBlock u.cursor u.notes = false)
    (found : language.dispatch u.cursor u.notes.fresh = .ok none n) (moves : n.suppressed = false)
    (hscratch : n.scratch = u.notes.scratch) (hstep : u.step language o = .ok () u') :
    EndsRightly o (heads ++ [u]) u' := by
  have hu' : u' = (State.plain { u with notes := n } language o).moveOn := by
    rw [step_eq_of_none found] at hstep
    injection hstep with _ hstep
    rw [← hstep, settle_of_moves _ (by rw [(frame_plain ..).1]; exact moves)]
  obtain ⟨ch, hch⟩ : ∃ ch, u.cursor.current? = some ch := ⟨_, Array.getElem?_eq_getElem hu⟩
  intro hin hends
  by_cases hn : ch = '\n'
  · left
    rw [hn] at hch
    rw [hu', plain_of_newline (s := { u with notes := n }) isWordChar_newline hch] at hin ⊢
    exact firstContent_newline (by rw [cursor_flush]; exact hch) hin
  · have hframe : u'.cursor.frame = u.cursor.frame := by
      rw [hu', moveOn, cursor_plain_of_ne (s := { u with notes := n }) hch hn]
      rfl
    have hframes : u'.notes.scratch.scope.frames = u.notes.scratch.scope.frames := by
      rw [hu', moveOn, (frame_plain ..).1, hscratch]
    rw [closesBlock_congr hframe hframes, hblock] at hends
    cases hends

private theorem endsRightly_of_runs (h : Runs language o (start text) heads u) : EndsRightly o heads u := by
  refine h.induction_snoc (P := EndsRightly o) ?_ ?_
  · intro _ hends
    cases hends
  · intro heads u u' hr ih hu hstep
    rcases dispatch_cases u.cursor u.notes.fresh with
      ⟨quote, -, hblock, found⟩ | ⟨-, found⟩ | ⟨-, -, found⟩ | ⟨frame, frames, hf, hblock, found⟩ | ⟨-, hblock, found⟩
    · exact endsRightly_of_string hr hblock found hstep
    · exact endsRightly_of_comment found hstep
    · exact endsRightly_of_colon hr found hstep
    · have hne : u.notes.scratch.scope.frames ≠ [] := by
        intro hnil
        rw [show u.notes.scratch.scope.frames = frame :: frames from hf] at hnil
        cases hnil
      exact ih.closed hu hr hblock hne found rfl rfl hstep
    · exact endsRightly_of_plain hu hblock found rfl rfl hstep

end Python

open State in
/-- A block ends at the first content of a line, or right behind a string or comment that holds a newline.  So no line
of blanks ends a block, unless it follows on such a construct. -/
theorem blocks_end {o : Options} {text : String} {heads : List State} {u : State} {n : Notes}
    (h : Runs Python.language o (start text) heads u) (hu : u.Inside)
    (found : Python.language.dispatch u.cursor u.notes.fresh = .ok (some .scopeEnd) n) :
    u.cursor.FirstContent ∨ Python.Behind o heads u := by
  apply Python.endsRightly_of_runs h hu
  rcases Python.dispatch_cases u.cursor u.notes.fresh with
    ⟨quote, -, -, hd⟩ | ⟨-, hd⟩ | ⟨-, -, hd⟩ | ⟨frame, frames, -, hblock, -⟩ | ⟨-, -, hd⟩
  all_goals try (rw [found] at hd; cases hd)
  exact hblock

/-! ### Runs, computed -/

namespace State

/-- The state after a number of steps, if so many can be made. -/
def after (s : State) (L : Language) (o : Options) : Nat → Option State
  | 0 => some s
  | n + 1 =>
    if s.cursor.index < s.cursor.text.size then
      match s.step L o with
      | .ok () s' => s'.after L o n
      | .error _ _ => none
    else none

private theorem runs_of_after {L : Language} {o : Options} {s t : State} {n : Nat} (h : s.after L o n = some t) :
    ∃ heads, Runs L o s heads t := by
  induction n generalizing s with
  | zero =>
    cases h
    exact ⟨[], .done _⟩
  | succ n ih =>
    rw [after] at h
    split at h
    · rename_i hs
      split at h
      · rename_i s' hstep
        obtain ⟨heads, hr⟩ := ih h
        exact ⟨s :: heads, .step hs hstep hr⟩
      · cases h
    · cases h

/-- A place where a scope end is found after a number of steps. -/
private theorem scopeEnd_of_after {L : Language} {o : Options} {s : State} {n : Nat} {c : Char}
    (h : (s.after L o n).map (fun u => (u.cursor.current?, u.found L)) = some (some c, some .scopeEnd)) :
    ∃ heads u notes, Runs L o s heads u ∧ u.Inside ∧ u.cursor.current? = some c ∧
      L.dispatch u.cursor u.notes.fresh = .ok (some .scopeEnd) notes := by
  obtain ⟨u, hu, hpair⟩ := Option.map_eq_some_iff.1 h
  obtain ⟨hcur, hfound⟩ := Prod.mk.inj hpair
  obtain ⟨heads, hr⟩ := runs_of_after hu
  obtain ⟨notes, hd⟩ := dispatch_of_found hfound
  exact ⟨heads, u, notes, hr, Cursor.lt_size_of_current hcur, hcur, hd⟩

end State

private theorem Cursor.not_firstContent_of_blank {c : Cursor} {ch : Char} (h : c.current? = some ch)
    (hb : isBlank ch = true) : ¬ c.FirstContent := by
  rintro ⟨⟨ch', hch', hb', -⟩, -⟩
  rw [h] at hch'
  cases hch'
  rw [hb] at hb'
  cases hb'

open State in
/-- A block ends in the middle of a line, behind a string that began on the line before. -/
theorem blocks_end_behind_string :
    ∃ heads u n, Runs Python.language {} (start "if a:\n    b = '''\n''' + c") heads u ∧ u.Inside ∧
      Python.language.dispatch u.cursor u.notes.fresh = .ok (some .scopeEnd) n ∧ u.cursor.current? = some ' ' ∧
      Python.Behind {} heads u := by
  obtain ⟨heads, u, n, hr, hu, hcur, hfound⟩ := scopeEnd_of_after (n := 11) (L := Python.language) (o := {})
    (s := start "if a:\n    b = '''\n''' + c") (c := ' ') (by decide +kernel)
  rcases blocks_end hr hu hfound with hfirst | hbehind
  · exact absurd hfirst (Cursor.not_firstContent_of_blank hcur (by decide))
  · exact ⟨heads, u, n, hr, hu, hfound, hcur, hbehind⟩

open State in
/-- A line of one blank after a comment ends a block that goes on behind it: what follows, deeper than the colon, comes
to stand outside the block. -/
theorem block_ends_at_blank :
    (∃ heads u n, Runs Python.language {} (start "if a:\n    b # c\n \n    d") heads u ∧ u.Inside ∧
      Python.language.dispatch u.cursor u.notes.fresh = .ok (some .scopeEnd) n ∧ u.cursor.current? = some ' ' ∧
      ¬ u.cursor.FirstContent) ∧
    (scan Python.language {} "if a:\n    b # c\n \n    d").toOption.map
      (fun out => out.root.tokens.toList.getLast?.map fun t => (t.isMarker, t.line, t.indent)) =
        some (some (false, 4, 1)) := by
  refine ⟨?_, by decide +kernel⟩
  obtain ⟨heads, u, n, hr, hu, hcur, hfound⟩ := scopeEnd_of_after (n := 9) (L := Python.language) (o := {})
    (s := start "if a:\n    b # c\n \n    d") (c := ' ') (by decide +kernel)
  exact ⟨heads, u, n, hr, hu, hfound, hcur, Cursor.not_firstContent_of_blank hcur (by decide)⟩

end LexTree
