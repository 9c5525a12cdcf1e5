import LexTree.Proofs.Bookkeeping
import LexTree.Proofs.Constructs

/-!
# Nothing is lost

With every kind of leaf kept, the leaves of a scan hold the characters of the text, each once and in order, up to blank
lines inside constructs.  Every step takes what it passes, thinned, unless the text cuts a construct short
(`Honest.passes_step`); so at every head the characters taken are those passed, thinned (`Covers`).
-/

namespace LexTree

namespace State

variable {L : Language} {o : Options} {s s' t : State} {heads : List State}

/-! ### Steps -/

private theorem passes_step_of_plain (ho : o.KeepsAll) (hs : s.Inside) {n : Notes}
    (found : L.dispatch s.cursor s.notes.fresh = .ok none n) (moves : n.suppressed = false)
    (hstep : s.step L o = .ok () s') : ∃ new, Passes s new new s' := by
  rw [step_eq_of_none found, settle_of_moves _ (by rw [(frame_plain ..).1]; exact moves)] at hstep
  injection hstep with _ hstep
  subst hstep
  obtain ⟨new, ht, hb, htaken, hcut⟩ := passes_plain (s := { s with notes := n }) (L := L) ho hs
  exact ⟨new, ht, hb, htaken, hcut⟩

/-- Every step from an honest state takes what it passes, thinned, unless the text cuts a construct short. -/
theorem Honest.passes_step (h : s.Honest L) (ho : o.KeepsAll) (hE : Exact o s) (hc : s.cursor.Countable) (hs : s.Inside)
    (hstep : s.step L o = .ok () s') :
    (∃ passed new, Thinned passed new ∧ Passes s passed new s') ∨
      ∃ passed new k, Thinned passed new ∧ CutShort s passed new k s' := by
  have hcur : ∀ n : Notes, (flush { s with notes := n } L).cursor = s.cursor := fun n => cursor_flush ..
  have hnotes : ∀ n : Notes, (flush { s with notes := n } L).notes = n := fun n => notes_flush ..
  have hword : ∀ n : Notes, (flush { s with notes := n } L).word = "" := fun n => word_flush ..
  -- a construct is read from a cursor at rest: its opening delimiter holds no newline
  have hconstruct : ∀ {n : Notes} {ends : Predicate} {name : String} {s₁ : State}, n.suppressed = false →
      s.cursor.Shows n.startMarker → Closing ends s.cursor n →
      (flush { s with notes := n } L).construct o ends name true = .ok () s₁ →
      (∃ passed new, Thinned passed new ∧ Passes s passed new (settle s.cursor s₁)) ∨
        ∃ passed new k, Thinned passed new ∧ CutShort s passed new k (settle s.cursor s₁) := by
    intro n ends name s₁ moves opening closing hb
    have hr : s.cursor.Rests o := ⟨hE.stamps, opening.current?_ne⟩
    have key := passes_construct (s := flush { s with notes := n } L) (by rw [hcur]; exact hc) (by rw [hcur]; exact hr)
      (hword n) (by rw [hnotes]; exact moves) (by rw [hcur, hnotes]; exact opening)
      (by rw [hcur, hnotes]; exact closing) hb
    rw [hcur] at key
    rcases key with ⟨passed, new, hthin, hpass⟩ | ⟨passed, new, k, hthin, hcut⟩
    · exact Or.inl ⟨passed, new, hthin, hpass.of_flush⟩
    · exact Or.inr ⟨passed, new, k, hthin, hcut.of_flush⟩
  cases h with
  | plain found moves =>
    obtain ⟨new, hpass⟩ := passes_step_of_plain ho hs found moves hstep
    exact Or.inl ⟨new, new, .refl new, hpass⟩
  | string found moves opening closing =>
    obtain ⟨s₁, hb, rfl⟩ := boundary_of_step found hstep
    rw [boundary, ho.strings] at hb
    exact hconstruct moves opening closing hb
  | comment found moves opening closing =>
    obtain ⟨s₁, hb, rfl⟩ := boundary_of_step found hstep
    rw [boundary, ho.comments] at hb
    exact hconstruct moves opening closing hb
  | @opened n found moves opening =>
    obtain ⟨s₁, hb, rfl⟩ := boundary_of_step found hstep
    have key := passes_opened (by rw [hcur, hnotes]; exact opening) (hword n) (by rw [hnotes]; exact moves) hb
    rw [hcur] at key
    exact Or.inl ⟨_, _, .refl _, key.of_flush⟩
  | @closed n found moves closing =>
    obtain ⟨s₁, hb, rfl⟩ := boundary_of_step found hstep
    have key := passes_closed (by rw [hcur, hnotes]; exact closing) (hword n) (by rw [hnotes]; exact moves) hb
    rw [hcur] at key
    exact Or.inl ⟨_, _, .refl _, key.of_flush⟩
  | @dedented n found stays silent inner =>
    obtain ⟨s₁, hb, rfl⟩ := boundary_of_step found hstep
    have key := passes_dedented (hword n) (by rw [hnotes]; exact stays) (by rw [hnotes]; exact silent)
      (by rw [hcur]; exact inner) hb
    rw [hcur] at key
    exact Or.inl ⟨[], [], .nil, key.of_flush⟩

/-! ### Runs -/

/-- What has been passed has been taken, thinned; or the text cut a construct short, and only the newlines at its end
were not taken. -/
inductive Covers (s : State) : Prop
  | kept (thinned : Thinned s.cursor.before s.taken) (fine : s.cut = false)
  | cutShort (kept : List Char) (k : Nat) (left : ¬ s.Inside)
      (whole : s.cursor.text.toList = kept ++ List.replicate k '\n') (last : kept.getLast? ≠ some '\n')
      (thinned : Thinned kept s.taken) (cut : s.cut = true)

private theorem Covers.step (h : Covers s) (hL : s.Honest L) (ho : o.KeepsAll) (hE : Exact o s)
    (hc : s.cursor.Countable) (hs : s.Inside) (hstep : s.step L o = .ok () s') : Covers s' := by
  cases h with
  | kept thinned fine =>
    rcases hL.passes_step ho hE hc hs hstep with ⟨passed, new, hthin, hp⟩ | ⟨passed, new, k, hthin, hp⟩
    · refine .kept ?_ (hp.cut.trans fine)
      rw [hp.before, hp.taken]
      exact thinned.append hthin
    · refine .cutShort (s.cursor.before ++ passed) k hp.left ?_ hp.last ?_ hp.cut
      · rw [hp.text]
        exact hp.whole
      · rw [hp.taken]
        exact thinned.append hthin
  | cutShort kept k left whole last thinned cut => exact absurd hs left

private theorem Runs.covers {text : String} (h : Runs L o (start text) heads t) (hL : L ∈ Bundled.languages)
    (ho : o.KeepsAll) (hlen : text.length < UInt32.size - 1) : Covers t := by
  -- at each head the language is honest and the cursor exact, by the run up to there
  refine h.invariant_along (.kept .nil (by simp [cut, start])) ?_
  intro heads u u' hr hu hs hstep
  obtain ⟨hE, ht, -⟩ := hr.exact_of_start (Or.inl hL) hlen
  refine hu.step (hr.honest hL).2 ho hE ?_ hs hstep
  rw [Cursor.Countable, ← Array.length_toList, ht, String.length_toList]
  exact hlen

private theorem Runs.taken_eq_of_dull {text : String} (h : Runs Dull.language o (start text) heads t)
    (ho : o.KeepsAll) : t.taken = t.cursor.before := by
  refine (h.invariant (P := fun u => u.taken = u.cursor.before) rfl ?_).2
  intro u u' hu hs hstep
  obtain ⟨new, hp⟩ := passes_step_of_plain ho hs (Dull.dispatch_eq ..) rfl hstep
  rw [hp.taken, hp.before, hu]

end State

/-! ### Scans -/

namespace Output

/-- The characters of the leaves, in order. -/
def chars (out : Output) : List Char := out.root.flatten.toList.flatMap fun l => l.text.toList

/-- Whether the text ended inside a construct. -/
def cutShort (out : Output) : Bool := out.diagnostics.any fun d => d.problem.isUnterminated

end Output

private theorem chars_finish (L : Language) (t : State) : (t.finish L).chars = t.taken := by
  rw [Output.chars, show (t.finish L).root = Scope.ofEvents (t.flush L).events from rfl, Scope.flatten_ofEvents]
  exact State.leafChars_flush t L

theorem cutShort_finish (L : Language) (t : State) : (t.finish L).cutShort = t.cut := State.cut_flush t L

/-- Nothing is lost, repeated or moved.  With every kind of leaf kept, the characters of the leaves are those of the
text once runs of newlines are squeezed; a construct that the text cuts short loses at most the newline at its end.
They are the text itself for Dull, and for a text without adjacent newlines that cuts no construct short. -/
theorem scan_keeps_text {L : Language} {o : Options} (hL : L ∈ Bundled.languages) (hvalid : o.validate = .ok ())
    (ho : o.KeepsAll) {text : String} (hlen : text.length < UInt32.size - 1) :
    ∃ out, scan L o text = .ok out ∧
      (out.cutShort = false → squeeze out.chars = squeeze text.toList) ∧
      (out.cutShort = true → squeeze out.chars = chomp (squeeze text.toList)) ∧
      (L = Dull.language → out.chars = text.toList) ∧
      (out.cutShort = false → ¬ ['\n', '\n'] <:+: text.toList → out.chars = text.toList) := by
  obtain ⟨heads, t, hr, hend, hscan⟩ := scan_bundled hL hvalid text
  have htext : t.cursor.text.toList = text.toList := (hr.exact_of_start (Or.inl hL) hlen).2.1
  have hbefore : t.cursor.before = text.toList := by
    rw [Cursor.before_of_size_le (Nat.not_lt.1 hend), htext]
  refine ⟨t.finish L, hscan, ?_⟩
  rw [chars_finish, cutShort_finish]
  have hdull : L = Dull.language → t.taken = text.toList := by
    rintro rfl
    rw [hr.taken_eq_of_dull ho, hbefore]
  cases hr.covers hL ho hlen with
  | kept thinned fine =>
    rw [hbefore] at thinned
    rw [fine]
    exact ⟨fun _ => thinned.squeeze_eq.symm, nofun, hdull, fun _ => thinned.eq_of_no_adjacent⟩
  | cutShort kept k left whole last thinned cut =>
    rw [htext] at whole
    rw [cut]
    refine ⟨nofun, fun _ => ?_, hdull, nofun⟩
    rw [whole, chomp_squeeze_append_newlines last, thinned.squeeze_eq]

theorem scan_keeps_text_python :
    ∃ out, scan Python.language { includeWhitespace := true, includeNewlines := true } "x = '''a\n\n b'''" = .ok out ∧
      squeeze out.chars = squeeze "x = '''a\n\n b'''".toList := by
  have hL : Python.language ∈ Bundled.languages := by simp [Bundled.languages]
  have hlen : "x = '''a\n\n b'''".length < UInt32.size - 1 := by decide
  have hcut : (scan Python.language { includeWhitespace := true, includeNewlines := true }
      "x = '''a\n\n b'''").toOption.map Output.cutShort = some false := by decide +kernel
  obtain ⟨out, hscan, hkept, -⟩ := scan_keeps_text hL
    (o := { includeWhitespace := true, includeNewlines := true }) rfl ⟨rfl, rfl, rfl, rfl⟩ hlen
  rw [hscan] at hcut
  exact ⟨out, hscan, hkept (Option.some.inj hcut)⟩

end LexTree
