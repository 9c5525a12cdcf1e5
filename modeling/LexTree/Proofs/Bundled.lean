import LexTree.Proofs.Dispatch
import LexTree.Proofs.Verbatim

/-!
# Runs of the bundled languages

A step from an honest state succeeds, and keeps the scratch state that was left when its boundary was found
(`Honest.step_ok`).  For Python this carries the lockstep of its frames and the open scopes through a run, and lockstep
makes Python honest; so all states of a run are honest (`Runs.honest`), and a bundled language never fails.
-/

namespace LexTree

def Bundled.languages : List Language := [Java.language, Python.language, Dull.language]

/-! ### Reading up to a test -/

/-- A construct whose end is a test that keeps the notes is read without fail: up to a place where the test holds, or to
the end of the text. -/
theorem readBody_of_test {o : Options} {ends : Predicate} {n : Notes} {test : Cursor → Bool}
    (asked : ∀ d, ends d n = .ok (test d) n) (c : Cursor) (line : UInt32) (text : String) :
    ∃ body, readBody o ends c line text n = .ok body n ∧ test body.cursor = body.terminated ∧
      (body.terminated = false → body.cursor.current? = none) := by
  obtain ⟨k, hloop, -⟩ := Reading.loop_readBody o ends ⟨c, line, text, n⟩
  have keep : ∀ r r' : Reading, r.notes = n → Reading.Turn o ends r r' → r'.notes = n := by
    rintro r r' rfl ⟨notes, ch, he, -, rfl⟩
    rw [asked] at he
    injection he with _ he
    exact he.symm
  obtain ⟨r, hr, hstop⟩ := hloop.invariant keep rfl
  rw [Reading.Stop, hr, asked] at hstop
  cases htest : test r.cursor with
  | true =>
    rw [htest] at hstop
    exact ⟨_, hstop, htest, by simp⟩
  | false =>
    rw [htest] at hstop
    exact ⟨_, hstop.2, htest, fun _ => hstop.1⟩

theorem Closing.readBody_ok {ends : Predicate} {c : Cursor} {n : Notes} (h : Closing ends c n) (o : Options)
    (d : Cursor) (line : UInt32) (text : String) : ∃ body, readBody o ends d line text n = .ok body n := by
  cases h with
  | delimiter test asked shown visible =>
    obtain ⟨body, hb, -⟩ := readBody_of_test asked d line text
    exact ⟨body, hb⟩
  | lineEnd marker asked =>
    obtain ⟨body, hb, -⟩ := readBody_of_test (o := o) asked d line text
    exact ⟨body, hb⟩

namespace State

variable {L : Language} {o : Options} {s s' t : State} {heads : List State}

private theorem construct_ok {ends : Predicate} {c : Cursor} (h : Closing ends c s.notes) (name : String)
    (included : Bool) : ∃ s', s.construct o ends name included = .ok () s' ∧ s'.notes.scratch = s.notes.scratch := by
  obtain ⟨body, hb⟩ := h.readBody_ok o (s.inside o) s.cursor.line ""
  obtain ⟨leaf, s₁, hv⟩ : ∃ leaf s₁, s.verbatim o ends name = .ok leaf s₁ := by
    unfold verbatim
    rw [inside] at hb
    simp only [hb]
    split <;> exact ⟨_, _, rfl⟩
  have hnotes : s₁.notes.scratch = s.notes.scratch := by
    obtain ⟨body', notes, hb', -, -, hcases⟩ := verbatim_cases hv
    rw [hb] at hb'
    injection hb' with _ hn
    subst hn
    rcases hcases with ⟨-, -, rfl⟩ | ⟨-, -, rfl⟩
    · simp only
      split <;> rfl
    · split <;> rfl
  unfold construct
  rw [hv]
  refine ⟨_, rfl, ?_⟩
  rw [notes_skipRest]
  split <;> exact hnotes

/-! ### Steps from honest states -/

/-- A step from an honest state succeeds, and keeps the scratch state left when its boundary was found. -/
theorem Honest.step_ok (h : s.Honest L) (o : Options) :
    ∃ s' b n, s.step L o = .ok () s' ∧ L.dispatch s.cursor s.notes.fresh = .ok b n ∧
      s'.notes.scratch = n.scratch := by
  have hboundary : ∀ {b : Boundary} {n : Notes} {s₁ : State},
      L.dispatch s.cursor s.notes.fresh = .ok (some b) n → boundary (flush { s with notes := n } L) L o b = .ok () s₁ →
      s₁.notes.scratch = n.scratch →
      ∃ s' b n, s.step L o = .ok () s' ∧ L.dispatch s.cursor s.notes.fresh = .ok b n ∧
        s'.notes.scratch = n.scratch := by
    intro b n s₁ hd hb hn
    refine ⟨settle s.cursor s₁, some b, n, step_eq_of_some hd hb, hd, ?_⟩
    rw [notes_settle]
    exact hn
  have hnotes : ∀ n : Notes, (flush { s with notes := n } L).notes = n := fun n => notes_flush ..
  cases h with
  | @plain n found moves =>
    refine ⟨_, none, n, step_eq_of_none found, found, ?_⟩
    rw [notes_settle, (frame_plain ..).1]
  | @string n found moves opening closing =>
    rw [← hnotes n] at closing
    obtain ⟨s₁, hs, hn⟩ := construct_ok (o := o) closing SymbolicName.string o.includeStrings
    exact hboundary found hs (hn.trans (by rw [hnotes]))
  | @comment n found moves opening closing =>
    rw [← hnotes n] at closing
    obtain ⟨s₁, hs, hn⟩ := construct_ok (o := o) closing SymbolicName.comment o.includeComments
    exact hboundary found hs (hn.trans (by rw [hnotes]))
  | @opened n found moves opening =>
    exact hboundary found rfl (by simp [openScope])
  | @closed n found moves closing =>
    exact hboundary found rfl (by simp)
  | @dedented n found stays silent inner =>
    exact hboundary found rfl (by simp)

/-! ### Frames of the open scopes -/

theorem frames_step (h : s.step L o = .ok () s') (hd : s.cursor.depth = s.draft.nested.length) :
    s'.draft.frames =
      match s.found L with
      | some .scopeStart => s.cursor.frame :: s.draft.frames
      | some .scopeEnd => s.draft.frames.tail
      | _ => s.draft.frames := by
  obtain ⟨⟨before, after, he⟩, -⟩ := events_step h
  rw [List.append_assoc, List.append_assoc] at he
  rw [draft_of_events he, List.foldl_append, List.foldl_append, Draft.frames_foldl_leaves,
    ← Draft.frames_foldl_leaves s.draft before]
  -- what is left is the scope opened or closed between the leaves
  unfold scopeEvents
  rcases s.found L with _ | _ | _ | _ | _
  · rfl
  · rfl
  · rfl
  · rfl
  · simp only [Option.elim_some, Boundary.scopeEvents]
    split
    · rename_i hzero
      have hnil : s.draft.frames = [] := by
        rw [← List.length_eq_zero_iff, Draft.length_frames, ← hd, hzero]
      rw [List.foldl_nil, Draft.frames_foldl_leaves, hnil]
      rfl
    · exact Draft.frames_closeScope _

end State

/-! ### Lockstep -/

namespace Python

/-- The frames kept by Python are the places of the open scopes. -/
def Lockstep (s : State) : Prop := s.notes.scratch.scope.frames = s.draft.frames

variable {o : Options} {s s' : State}

theorem Lockstep.honest (h : Lockstep s) (hd : s.cursor.depth = s.draft.nested.length) : s.Honest language := by
  apply Python.honest
  rw [h, Draft.length_frames, hd]

theorem Lockstep.depth_ne_zero {frame : Frame} {frames : List Frame} (h : Lockstep s)
    (hd : s.cursor.depth = s.draft.nested.length) (hf : s.notes.scratch.scope.frames = frame :: frames) :
    s.cursor.depth ≠ 0 := by
  rw [h] at hf
  have hlen := congrArg List.length hf
  rw [Draft.length_frames, ← hd, List.length_cons] at hlen
  omega

private theorem Lockstep.step (h : Lockstep s) (hd : s.cursor.depth = s.draft.nested.length)
    (hstep : s.step language o = .ok () s') : Lockstep s' := by
  obtain ⟨s₁, b, n, hs₁, hfound, hn⟩ := (h.honest hd).step_ok o
  rw [hstep] at hs₁
  injection hs₁ with _ hs₁
  subst hs₁
  have hframes := State.frames_step hstep hd
  rw [State.found_of_dispatch hfound, ← h] at hframes
  rw [Lockstep, hn, hframes]
  -- the notes are those of the case that was found
  rcases dispatch_cases s.cursor s.notes.fresh with
    ⟨quote, -, -, hd'⟩ | ⟨-, hd'⟩ | ⟨-, -, hd'⟩ | ⟨frame, frames, hf, -, hd'⟩ | ⟨-, -, hd'⟩
  all_goals
    rw [hfound] at hd'
    injection hd' with hb hn'
    subst hb hn'
  · rfl
  · rfl
  · rfl
  · have hf : s.notes.scratch.scope.frames = frame :: frames := hf
    simp only [hf]
    rfl
  · rfl

end Python

namespace State

variable {L : Language} {o : Options} {t : State} {heads : List State} {text : String}

/-- Python keeps a frame for each open scope, with its place, at every head. -/
theorem Runs.lockstep (h : Runs Python.language o (start text) heads t) :
    (∀ u ∈ heads, Python.Lockstep u) ∧ Python.Lockstep t := by
  -- lockstep is kept together with the depth, which it needs to be honest
  have key := h.invariant (P := fun u => Python.Lockstep u ∧ u.cursor.depth = u.draft.nested.length) ⟨rfl, rfl⟩
    fun u u' hu _ hstep => ⟨hu.1.step hu.2 hstep, (log_step hstep hu.2).1⟩
  exact ⟨fun u hu => (key.1 u hu).1, key.2.1⟩

/-- What a bundled language finds is really there, at every head and at the end. -/
theorem Runs.honest (hL : L ∈ Bundled.languages) (h : Runs L o (start text) heads t) :
    (∀ u ∈ heads, u.Honest L) ∧ t.Honest L := by
  simp only [Bundled.languages, List.mem_cons, List.not_mem_nil, or_false] at hL
  rcases hL with rfl | rfl | rfl
  · exact ⟨fun u _ => Java.honest u, Java.honest t⟩
  · obtain ⟨hheads, ht⟩ := h.lockstep
    obtain ⟨hdheads, hdt⟩ := h.depth_eq
    exact ⟨fun u hu => (hheads u hu).honest (hdheads u hu), ht.honest hdt⟩
  · exact ⟨fun u _ => Dull.honest u, Dull.honest t⟩

end State

open State in
/-- A bundled language never fails: with usable options every text is scanned. -/
theorem scan_bundled {L : Language} {o : Options} (hL : L ∈ Bundled.languages) (ho : o.validate = .ok ())
    (text : String) :
    ∃ heads t, Runs L o (start text) heads t ∧ ¬ t.Inside ∧ scan L o text = .ok (t.finish L) := by
  obtain ⟨heads, t, hr, hend⟩ := run_ends L o (start text)
  rcases hend with ⟨ht, -⟩ | ⟨ht, e, u, herr, -⟩
  · have hvalid : L.validate = .ok () := by
      simp only [Bundled.languages, List.mem_cons, List.not_mem_nil, or_false] at hL
      rcases hL with rfl | rfl | rfl <;> rfl
    exact ⟨heads, t, hr, ht, scan_eq_ok_iff.2 ⟨hvalid, ho, heads, t, hr, ht, rfl⟩⟩
  · obtain ⟨s', b, n, hok, -⟩ := (hr.honest hL).2.step_ok o
    rw [hok] at herr
    cases herr

end LexTree
