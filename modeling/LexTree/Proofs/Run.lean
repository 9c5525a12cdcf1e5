import LexTree.Scan.Run

/-!
# Runs of the main loop

A run is a sequence of steps inside the text, given by the states where its steps begin, the heads.  Every loop
invariant is an instance of `Runs.invariant`: what holds at the start and is kept by each step holds at every head and
at the end.  The loop itself is a run that ends past the text or at a step that fails (`run_ends`), and `step_cases`
says what one step can do.
-/

namespace LexTree

namespace State

def Inside (s : State) : Prop := s.cursor.index < s.cursor.text.size

/-- The main loop gets from one state to another by the steps that begin at the given heads. -/
inductive Runs (L : Language) (o : Options) : State → List State → State → Prop
  | done (s : State) : Runs L o s [] s
  | step {s s' t : State} {heads : List State} (hs : s.Inside) (h : s.step L o = .ok () s')
      (rest : Runs L o s' heads t) : Runs L o s (s :: heads) t

variable {L : Language} {o : Options} {s s' t : State} {heads : List State}

/-- What holds at the start and is kept by every step holds at every head and at the end. -/
theorem Runs.invariant {P : State → Prop} (h : Runs L o s heads t) (hP : P s)
    (keep : ∀ s s', P s → s.Inside → s.step L o = .ok () s' → P s') : (∀ u ∈ heads, P u) ∧ P t := by
  induction h with
  | done s => exact ⟨by simp, hP⟩
  | @step s s' t heads hs h rest ih =>
    obtain ⟨hheads, ht⟩ := ih (keep s s' hP hs h)
    refine ⟨?_, ht⟩
    intro u hu
    rcases List.mem_cons.1 hu with rfl | hu
    · exact hP
    · exact hheads u hu

theorem Runs.snoc (h : Runs L o s heads t) {t' : State} (ht : t.Inside) (hstep : t.step L o = .ok () t') :
    Runs L o s (heads ++ [t]) t' := by
  induction h with
  | done s => exact .step ht hstep (.done t')
  | step hs h rest ih => exact .step hs h (ih ht hstep)

theorem Runs.trans {u : State} {heads' : List State} (h : Runs L o s heads t) (h' : Runs L o t heads' u) :
    Runs L o s (heads ++ heads') u := by
  induction h with
  | done s => exact h'
  | step hs h rest ih => exact .step hs h (ih h')

/-- An invariant may be kept on the strength of the run so far. -/
theorem Runs.invariant_along {P : State → Prop} (h : Runs L o s heads t) (hP : P s)
    (keep : ∀ heads u u', Runs L o s heads u → P u → u.Inside → u.step L o = .ok () u' → P u') : P t := by
  obtain ⟨-, -, -, ht⟩ := h.invariant (P := fun u => ∃ heads, Runs L o s heads u ∧ P u) ⟨[], .done s, hP⟩ (by
    rintro u u' ⟨heads, hr, hu⟩ hs hstep
    exact ⟨heads ++ [u], hr.snoc hs hstep, keep heads u u' hr hu hs hstep⟩)
  exact ht

/-- A property of a run and its heads may be carried along the run from its start. -/
theorem Runs.induction_snoc {P : List State → State → Prop} (h : Runs L o s heads t) (hP : P [] s)
    (keep : ∀ heads u u', Runs L o s heads u → P heads u → u.Inside → u.step L o = .ok () u' → P (heads ++ [u]) u') :
    P heads t := by
  suffices key : ∀ pre u, Runs L o u heads t → Runs L o s pre u → P pre u → P (pre ++ heads) t from
    key [] s h (.done s) hP
  clear h
  intro pre u hr
  induction hr generalizing pre with
  | done u =>
    intro _ hu
    rwa [List.append_nil]
  | @step u u' t heads hu hstep rest ih =>
    intro hpre hPu
    rw [List.append_cons]
    exact ih (pre ++ [u]) (hpre.snoc hu hstep) (keep pre u u' hpre hPu hu hstep)

theorem Runs.of_mem {u : State} (h : Runs L o s heads t) (hu : u ∈ heads) :
    ∃ before after, heads = before ++ u :: after ∧ Runs L o s before u ∧ Runs L o u (u :: after) t := by
  induction h with
  | done s => simp at hu
  | @step s s' t heads hs h rest ih =>
    rcases List.mem_cons.1 hu with rfl | hu
    · exact ⟨[], heads, rfl, .done _, .step hs h rest⟩
    · obtain ⟨before, after, rfl, hb, ha⟩ := ih hu
      exact ⟨s :: before, after, rfl, .step hs h hb, ha⟩

/-! ### The loop as a run -/

/-- The loop always comes to an end: past the text, or at a step that fails. -/
theorem run_ends (L : Language) (o : Options) (s : State) :
    ∃ heads t, Runs L o s heads t ∧
      ((¬ t.Inside ∧ s.run L o = .ok () t) ∨
        (t.Inside ∧ ∃ e u, t.step L o = .error e u ∧ s.run L o = .error e u)) := by
  fun_induction run s L o with
  | case1 s hs s' h ih =>
    obtain ⟨heads, t, hr, hend⟩ := ih
    exact ⟨s :: heads, t, .step hs h hr, hend⟩
  | case2 s hs e s' h => exact ⟨[], s, .done s, Or.inr ⟨hs, e, s', h, rfl⟩⟩
  | case3 s hs => exact ⟨[], s, .done s, Or.inl ⟨hs, rfl⟩⟩

theorem Runs.run_eq (h : Runs L o s heads t) : s.run L o = t.run L o := by
  induction h with
  | done s => rfl
  | @step s s' t heads hs h rest ih =>
    rw [run, dif_pos (show s.cursor.index < s.cursor.text.size from hs)]
    split
    · rename_i s₁ h₁
      rw [h] at h₁
      injection h₁ with _ h₁
      rw [← h₁, ih]
    · rename_i h₁
      rw [h] at h₁
      cases h₁

theorem run_of_not_inside (hs : ¬ s.Inside) : s.run L o = .ok () s := by
  rw [run, dif_neg (show ¬ s.cursor.index < s.cursor.text.size from hs)]

/-- The loop succeeds exactly with a run that leaves the text. -/
theorem run_eq_ok_iff : s.run L o = .ok () t ↔ ∃ heads, Runs L o s heads t ∧ ¬ t.Inside := by
  constructor
  · intro h
    obtain ⟨heads, u, hr, ⟨hu, hrun⟩ | ⟨hu, e, v, hv, hrun⟩⟩ := run_ends L o s
    · rw [h] at hrun
      injection hrun with _ hrun
      exact ⟨heads, hrun ▸ hr, hrun ▸ hu⟩
    · rw [h] at hrun
      cases hrun
  · rintro ⟨heads, hr, ht⟩
    rw [hr.run_eq, run_of_not_inside ht]

/-- A scan succeeds exactly on a usable language and options and with a run that leaves the text. -/
theorem scan_eq_ok_iff {text : String} {out : Output} :
    scan L o text = .ok out ↔ L.validate = .ok () ∧ o.validate = .ok () ∧
      ∃ heads t, Runs L o (start text) heads t ∧ ¬ t.Inside ∧ out = t.finish L := by
  unfold scan
  cases hL : L.validate with
  | error e => simp [bind, Except.bind]
  | ok u =>
    cases ho : o.validate with
    | error e => simp [bind, Except.bind]
    | ok u =>
      simp only [bind, Except.bind, true_and]
      cases hr : (start text).run L o with
      | ok u t =>
        obtain ⟨heads, hruns, ht⟩ := run_eq_ok_iff.1 hr
        constructor
        · intro h
          injection h with h
          exact ⟨heads, t, hruns, ht, h.symm⟩
        · rintro ⟨heads', t', hruns', ht', rfl⟩
          have : (start text).run L o = .ok () t' := run_eq_ok_iff.2 ⟨heads', hruns', ht'⟩
          rw [hr] at this
          injection this with _ this
          rw [this]
          rfl
      | error e t =>
        constructor
        · intro h
          cases h
        · rintro ⟨heads', t', hruns', ht', rfl⟩
          have : (start text).run L o = .ok () t' := run_eq_ok_iff.2 ⟨heads', hruns', ht'⟩
          rw [hr] at this
          cases this

/-! ### What one step does -/

/-- A step either takes a plain character or handles the boundary it found; then the cursor settles. -/
theorem step_cases (h : s.step L o = .ok () s') :
    (∃ notes, L.dispatch s.cursor s.notes.fresh = .ok none notes ∧
      s' = settle s.cursor (plain { s with notes } L o)) ∨
    (∃ b notes s₁, L.dispatch s.cursor s.notes.fresh = .ok (some b) notes ∧
      boundary (flush { s with notes } L) L o b = .ok () s₁ ∧ s' = settle s.cursor s₁) := by
  unfold step at h
  split at h
  · cases h
  · rename_i notes hd
    injection h with _ h
    exact Or.inl ⟨notes, hd, h.symm⟩
  · rename_i b notes hd
    split at h
    · cases h
    · rename_i s₁ hb
      injection h with _ h
      exact Or.inr ⟨b, notes, s₁, hd, hb, h.symm⟩

theorem eq_of_scopeStart (h : s.boundary L o .scopeStart = .ok () s') :
    s' = (s.delimiter L s.notes.startMarker).openScope.skipRest o s.notes.startMarker.length := by
  simp only [boundary] at h
  injection h with _ h
  exact h.symm

theorem eq_of_scopeEnd (h : s.boundary L o .scopeEnd = .ok () s') :
    s' = (s.closeScope.delimiter L s.notes.endMarker).skipRest o s.notes.endMarker.length := by
  simp only [boundary] at h
  injection h with _ h
  exact h.symm

theorem step_eq_of_none {n : Notes} (found : L.dispatch s.cursor s.notes.fresh = .ok none n) :
    s.step L o = .ok () (settle s.cursor (plain { s with notes := n } L o)) := by
  rw [step, found]

theorem step_eq_of_some {b : Boundary} {n : Notes} {s₁ : State}
    (found : L.dispatch s.cursor s.notes.fresh = .ok (some b) n)
    (hb : boundary (flush { s with notes := n } L) L o b = .ok () s₁) :
    s.step L o = .ok () (settle s.cursor s₁) := by
  rw [step, found]
  simp only [hb]

theorem step_of_found {b : Boundary} {n : Notes} (found : L.dispatch s.cursor s.notes.fresh = .ok (some b) n) :
    s.step L o =
      match boundary (flush { s with notes := n } L) L o b with
      | .error e s₁ => .error e s₁
      | .ok _ s₁ => .ok () (settle s.cursor s₁) := by
  unfold step
  split
  all_goals
    rename_i hd
    rw [found] at hd
    cases hd
  rfl

theorem boundary_of_step {b : Boundary} {n : Notes} (found : L.dispatch s.cursor s.notes.fresh = .ok (some b) n)
    (h : s.step L o = .ok () s') :
    ∃ s₁, boundary (flush { s with notes := n } L) L o b = .ok () s₁ ∧ s' = settle s.cursor s₁ := by
  obtain ⟨notes, hd, -⟩ | ⟨b', notes, s₁, hd, hb, he⟩ := step_cases h
  · rw [found] at hd
    cases hd
  · rw [found] at hd
    injection hd with hb' hn'
    injection hb' with hb'
    subst hb' hn'
    exact ⟨s₁, hb, he⟩

end State

end LexTree
