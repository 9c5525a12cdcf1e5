import LexTree.Proofs.Emission
import LexTree.Proofs.Loops

/-!
# Progress

Whatever the predicates of a language do, the main loop moves on: a step moves the cursor forward, or leaves it where it
is and closes a scope (`step_progress`), and a step that opens a scope moves forward.  So in a whole run the steps that
stay are paid for by scopes opened before (`Runs.stays_le_opens`), and the number of steps is at most twice the length
of the text (`Runs.length_le`).
-/

namespace LexTree

namespace State

/-! ### Steps -/

variable {L : Language} {o : Options} {s s' t : State} {heads : List State}

/-- Whether the step that begins here leaves the cursor where it is. -/
def staysPut (L : Language) (o : Options) (s : State) : Bool :=
  match s.step L o with
  | .ok _ s' => s'.cursor.index = s.cursor.index
  | .error _ _ => false

private theorem step_settles (h : s.step L o = .ok () s') :
    ∃ s₁, s' = settle s.cursor s₁ ∧ s₁.cursor.text = s.cursor.text ∧ s.cursor.index ≤ s₁.cursor.index := by
  obtain ⟨notes, -, rfl⟩ | ⟨b, notes, s₁, -, hb, rfl⟩ := step_cases h
  · have hr := reaches_plain { s with notes } L o
    exact ⟨_, rfl, hr.text, hr.index⟩
  · obtain ⟨ht, hi, -⟩ := boundary_cursor hb
    rw [cursor_flush] at ht hi
    exact ⟨s₁, rfl, ht, hi⟩

theorem text_step (h : s.step L o = .ok () s') : s'.cursor.text = s.cursor.text := by
  obtain ⟨s₁, rfl, ht, -⟩ := step_settles h
  obtain ⟨he, -⟩ | ⟨he, -⟩ := settle_cases s.cursor s₁ <;> rw [he]
  · exact ht
  · exact ht

/-- Every step moves the cursor forward, or leaves it where it is and closes a scope. -/
theorem step_progress (h : s.step L o = .ok () s') :
    s.cursor.index < s'.cursor.index ∨ s'.cursor.index = s.cursor.index ∧ s'.cursor.depth < s.cursor.depth := by
  obtain ⟨s₁, rfl, -, hi⟩ := step_settles h
  obtain ⟨he, -, hmoved | hclosed⟩ | ⟨he, -⟩ := settle_cases s.cursor s₁ <;> rw [he]
  · omega
  · omega
  · exact Or.inl (Nat.lt_succ_of_le hi)

theorem index_le_step (h : s.step L o = .ok () s') : s.cursor.index ≤ s'.cursor.index := by
  rcases step_progress h with hlt | ⟨heq, -⟩
  · exact Nat.le_of_lt hlt
  · exact Nat.le_of_eq heq.symm

private theorem depth_step_of_opensScope (h : s.step L o = .ok () s') (hs : opensScope L s = true) :
    s'.cursor.depth = s.cursor.depth + 1 := by
  have hf : s.found L = some .scopeStart := by simpa [opensScope] using hs
  rw [(events_step h).2, scopeEvents, hf]
  rfl

private theorem index_lt_of_opensScope (h : s.step L o = .ok () s') (hs : opensScope L s = true) :
    s.cursor.index < s'.cursor.index := by
  have hd := depth_step_of_opensScope h hs
  obtain hi | ⟨-, hlt⟩ := step_progress h
  · exact hi
  · omega

theorem depth_step_le (h : s.step L o = .ok () s') :
    s'.cursor.depth ≤ s.cursor.depth + if opensScope L s then 1 else 0 := by
  by_cases hs : opensScope L s = true
  · rw [if_pos hs]
    exact Nat.le_of_eq (depth_step_of_opensScope h hs)
  · rw [if_neg hs, (events_step h).2, scopeEvents]
    have hf : s.found L ≠ some .scopeStart := by simpa [opensScope] using hs
    rcases hb : s.found L with _ | _ | _ | _ | _
    · exact Nat.le_refl _
    · exact Nat.le_refl _
    · exact Nat.le_refl _
    · exact absurd hb hf
    · simp only [Option.elim_some, Boundary.scopeEvents]
      split
      · exact Nat.le_refl _
      · exact Nat.sub_le _ _

/-! ### Runs -/

private theorem staysPut_iff (h : s.step L o = .ok () s') :
    staysPut L o s = true ↔ s'.cursor.index = s.cursor.index := by
  unfold staysPut
  rw [h]
  exact decide_eq_true_iff

private theorem Runs.stays_add_depth_le (h : Runs L o s heads t) :
    heads.countP (staysPut L o) + t.cursor.depth ≤ heads.countP (opensScope L) + s.cursor.depth := by
  -- the open scopes are what is left to pay for steps that stay
  induction h with
  | done s => simp
  | @step s s' t heads hs h rest ih =>
    have hd := depth_step_le h
    rw [List.countP_cons, List.countP_cons]
    by_cases hp : staysPut L o s = true
    · -- a step that stays has closed a scope
      have hi := (staysPut_iff h).1 hp
      obtain hlt | ⟨-, hlt⟩ := step_progress h
      · omega
      · rw [if_pos hp]
        omega
    · rw [if_neg hp]
      omega

/-- The steps of a run that stay where they are never outnumber those that open a scope. -/
theorem Runs.stays_le_opens {text : String} (h : Runs L o (start text) heads t) :
    heads.countP (staysPut L o) ≤ heads.countP (opensScope L) := by
  have h₁ := h.stays_add_depth_le
  have h₂ : (start text).cursor.depth = 0 := rfl
  omega

private theorem Runs.moves_le (h : Runs L o s heads t) :
    heads.countP (fun u => !staysPut L o u) ≤ s.cursor.ahead := by
  induction h with
  | done s => exact Nat.zero_le _
  | @step s s' t heads hs h rest ih =>
    have ht := text_step h
    have hs : s.cursor.index < s.cursor.text.size := hs
    rw [List.countP_cons]
    simp only [Cursor.ahead, ht] at ih ⊢
    obtain hlt | ⟨heq, -⟩ := step_progress h
    · split <;> omega
    · have hp : staysPut L o s = true := (staysPut_iff h).2 heq
      rw [heq] at ih
      simpa [hp] using ih

private theorem Runs.opens_le_moves (h : Runs L o s heads t) :
    heads.countP (opensScope L) ≤ heads.countP (fun u => !staysPut L o u) := by
  induction h with
  | done s => exact Nat.le_refl _
  | @step s s' t heads hs h rest ih =>
    rw [List.countP_cons, List.countP_cons]
    by_cases ho : opensScope L s = true
    · have hp : staysPut L o s = false := by
        rw [← Bool.not_eq_true, staysPut_iff h]
        have := index_lt_of_opensScope h ho
        omega
      rw [if_pos ho, hp]
      exact Nat.succ_le_succ ih
    · rw [if_neg ho]
      omega

/-- A run has at most two steps for each character of the text. -/
theorem Runs.length_le {text : String} (h : Runs L o (start text) heads t) : heads.length ≤ 2 * text.length := by
  have h₁ := h.stays_le_opens
  have h₂ := h.opens_le_moves
  have h₃ := h.moves_le
  have h₄ := List.length_eq_countP_add_countP (staysPut L o) (l := heads)
  have h₅ : (start text).cursor.ahead = text.length := by
    simp [start, Cursor.ofString, Cursor.ahead, String.length_toList]
  simp only [Bool.not_eq_true, Bool.decide_eq_false] at h₄
  omega

end State

open State in
/-- No language can hang the scanner.  The main loop ends after at most two steps for each character.  Every step moves
the cursor forward, or leaves it and lowers the number of open scopes; a step that opens a scope moves forward, so the
steps that stay never outnumber those that open a scope.  The loops inside a step go round at most once for each
character ahead. -/
theorem scan_loop_ends (L : Language) (o : Options) (text : String) :
    (∃ heads t, Runs L o (start text) heads t ∧ heads.length ≤ 2 * text.length ∧
      ((¬ t.Inside ∧ (start text).run L o = .ok () t) ∨
        (t.Inside ∧ ∃ e u, t.step L o = .error e u ∧ (start text).run L o = .error e u))) ∧
    (∀ heads s s', Runs L o (start text) heads s → s.Inside → s.step L o = .ok () s' →
      (s.cursor.index < s'.cursor.index ∨
        s'.cursor.index = s.cursor.index ∧ s'.draft.nested.length < s.draft.nested.length) ∧
      (opensScope L s = true → s.cursor.index < s'.cursor.index)) ∧
    (∀ heads s, Runs L o (start text) heads s → heads.length ≤ 2 * text.length ∧
      heads.countP (staysPut L o) ≤ heads.countP (opensScope L)) ∧
    (∀ c, ∃ n, Loop (Cursor.QuietTurn o) (Cursor.QuietStop o) c n (c.stepQuiet o) ∧ n ≤ c.ahead) ∧
    (∀ s, ∃ n, Loop (NewlineTurn o) (NewlineStop o) s n (s.newline o) ∧ n ≤ s.cursor.ahead) ∧
    (∀ ends (r : Reading), ∃ n, Loop (Reading.Turn o ends) (Reading.Stop ends) r n
      (readBody o ends r.cursor r.line r.text r.notes) ∧ n ≤ r.cursor.ahead) := by
  refine ⟨?_, ?_, ?_, Cursor.loop_stepQuiet o, loop_newline o, Reading.loop_readBody o⟩
  · obtain ⟨heads, t, hr, hend⟩ := run_ends L o (start text)
    exact ⟨heads, t, hr, hr.length_le, hend⟩
  · intro heads s s' hr hs h
    have hd := hr.depth_eq.2
    rw [← hd, ← (log_step h hd).1]
    exact ⟨step_progress h, index_lt_of_opensScope h⟩
  · intro heads s hr
    exact ⟨hr.length_le, hr.stays_le_opens⟩

end LexTree
