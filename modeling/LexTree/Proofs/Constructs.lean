import LexTree.Proofs.Bundled
import LexTree.Proofs.Passing
import LexTree.Proofs.Thinning

/-!
# Passing strings and comments

A construct copies the characters it passes, except that each line change inside it is written as one newline, however
many newlines were crossed (`Reading.Follows`).  So what is taken for it is what was passed, thinned.  A construct that
the text cuts short leaves out the newlines at the end of the text (`CutShort`).
-/

namespace LexTree

/-! ### Inside a construct -/

/-- A construct has read the characters `src`, which are followed up to the cursor by `k` newlines. -/
structure Reading.Follows (o : Options) (text : Array Char) (before src : List Char) (k : Nat) (r : Reading) :
    Prop where
  text_eq : r.cursor.text = text
  rests : r.cursor.Rests o
  before_eq : r.cursor.before = before ++ src ++ List.replicate k '\n'
  line_eq : r.line.toNat = 1 + (before ++ src).count '\n'
  thinned : Thinned src r.text.toList
  last : (before ++ src).getLast? ≠ some '\n'

namespace Reading.Follows

variable {o : Options} {ends : Predicate} {text : Array Char} {before src : List Char} {k : Nat} {r r' : Reading}

theorem cursor_line (h : Follows o text before src k r) : r.cursor.line.toNat = r.line.toNat + k := by
  have hline : r.cursor.line.toNat = 1 + r.cursor.before.count '\n' := h.rests.1.1
  rw [hline, h.before_eq, h.line_eq, List.count_append, List.count_replicate_self]
  omega

theorem line_eq_iff (h : Follows o text before src k r) : r.cursor.line = r.line ↔ k = 0 := by
  rw [← UInt32.toNat_inj, h.cursor_line]
  omega

/-- The newlines crossed are written as one. -/
private theorem thinned_newlines (h : Follows o text before src k r) :
    Thinned (src ++ List.replicate k '\n') (r.text.toList ++ if r.cursor.line = r.line then [] else ['\n']) := by
  refine h.thinned.append ?_
  cases k with
  | zero =>
    rw [if_pos (h.line_eq_iff.2 rfl)]
    exact .nil
  | succ k =>
    rw [if_neg fun hl => Nat.succ_ne_zero k (h.line_eq_iff.1 hl)]
    exact Thinned.newlines k

/-- Reading on passes one more character, and the newlines after it. -/
theorem turn (hc : text.size < UInt32.size - 1) (h : Follows o text before src k r) (ht : Turn o ends r r') :
    ∃ ch k', r.cursor.current? = some ch ∧
      Follows o text before (src ++ List.replicate k '\n' ++ [ch]) k' r' := by
  obtain ⟨notes, ch, -, hch, rfl⟩ := ht
  have hne : ch ≠ '\n' := fun hn => h.rests.2 (by rw [hch, hn])
  have hcount : r.cursor.Countable := by
    rw [Cursor.Countable, h.text_eq]
    exact hc
  obtain ⟨k', hk'⟩ := Cursor.before_stepQuiet o r.cursor
  rw [Cursor.take_succ_eq hch] at hk'
  -- the newlines crossed before this character are now part of what was read
  have hsrc : before ++ (src ++ List.replicate k '\n' ++ [ch]) = r.cursor.before ++ [ch] := by
    rw [h.before_eq]
    simp
  refine ⟨ch, k', hch, ?_, ?_, ?_, ?_, ?_, ?_⟩
  · exact (Cursor.reaches_stepQuiet o r.cursor).text.trans h.text_eq
  · exact Cursor.rests_stepQuiet hcount h.rests.stamps_succ
  · rw [hsrc]
    exact hk'
  · have hline : r.cursor.line.toNat = 1 + r.cursor.before.count '\n' := h.rests.1.1
    rw [hsrc, hline, List.count_append]
    simp [hne]
  · rw [String.toList_push]
    refine Thinned.append ?_ (.refl [ch])
    have hnl := h.thinned_newlines
    split at hnl <;> rename_i hl
    · rw [if_pos hl]
      rwa [List.append_nil] at hnl
    · rw [if_neg hl, String.toList_push]
      exact hnl
  · rw [hsrc, List.getLast?_concat]
    exact fun h => hne (Option.some.inj h)

end Reading.Follows

namespace State

variable {L : Language} {o : Options} {ends : Predicate} {name : String} {body : Body} {notes : Notes} {s s' : State}

/-- The reading of a construct begins behind its opening delimiter and the newlines after it. -/
theorem follows_inside (hc : s.cursor.Countable) (hr : s.cursor.Rests o)
    (opening : s.cursor.Shows s.notes.startMarker) :
    ∃ k, Reading.Follows o s.cursor.text (s.cursor.before ++ s.notes.startMarker.toList) [] k
      ⟨s.inside o, s.cursor.line, "", s.notes⟩ := by
  obtain ⟨k, hk⟩ := opening.before_stepsQuiet o
  have hline : s.cursor.line.toNat = 1 + s.cursor.before.count '\n' := hr.1.1
  have hlast : s.notes.startMarker.toList.getLast? ≠ some '\n' :=
    fun h => opening.one_line (List.mem_of_getLast? h)
  refine ⟨k, (Cursor.reaches_stepsQuiet o _ s.cursor).text, rests_inside hc hr, ?_, ?_, .nil, ?_⟩
  · rw [List.append_nil]
    exact hk
  · rw [List.append_nil, List.count_append, List.count_eq_zero_of_not_mem opening.one_line, Nat.add_zero]
    exact hline
  · rw [List.append_nil, List.getLast?_append]
    have hne : s.notes.startMarker.toList ≠ [] := fun h => opening.ne_empty (String.toList_eq_nil_iff.1 h)
    rw [List.getLast?_eq_some_getLast hne] at hlast ⊢
    exact hlast

private theorem follows_body (hc : s.cursor.Countable) (hr : s.cursor.Rests o)
    (opening : s.cursor.Shows s.notes.startMarker)
    (hb : readBody o ends (s.inside o) s.cursor.line "" s.notes = .ok body notes) :
    ∃ src k n, Reading.Follows o s.cursor.text (s.cursor.before ++ s.notes.startMarker.toList) src k
      ⟨body.cursor, body.line, body.text, n⟩ := by
  obtain ⟨k, hstart⟩ := follows_inside hc hr opening
  obtain ⟨n, ⟨src, k, hP⟩, -⟩ := Reading.of_readBody
    (P := fun r => ∃ src k, Reading.Follows o s.cursor.text (s.cursor.before ++ s.notes.startMarker.toList) src k r)
    (fun r r' hP ht => by
      obtain ⟨src, k, hP⟩ := hP
      obtain ⟨ch, k', -, hP'⟩ := hP.turn hc ht
      exact ⟨_, k', hP'⟩)
    (r := ⟨s.inside o, s.cursor.line, "", s.notes⟩) ⟨[], k, hstart⟩ hb
  exact ⟨src, k, n, hP⟩

theorem line_readBody (asked : ∀ d, ends d s.notes = .ok (d.line ≠ s.cursor.line) s.notes) {c : Cursor} {text : String}
    (hb : readBody o ends c s.cursor.line text s.notes = .ok body notes) : body.line = s.cursor.line := by
  have keep : ∀ r r' : Reading, r.notes = s.notes ∧ r.line = s.cursor.line → Reading.Turn o ends r r' →
      r'.notes = s.notes ∧ r'.line = s.cursor.line := by
    rintro r r' ⟨hn, -⟩ ⟨n, ch, he, -, rfl⟩
    rw [hn, asked] at he
    injection he with hl hn'
    exact ⟨hn'.symm, by simpa using hl⟩
  obtain ⟨n, ⟨-, hl⟩, -⟩ :=
    Reading.of_readBody keep (r := ⟨c, s.cursor.line, text, s.notes⟩) ⟨rfl, rfl⟩ hb
  exact hl

/-- The state once a construct has been read up to a cursor and its leaf kept. -/
def keep (s : State) (c : Cursor) (n : Notes) (leaf : Leaf) : State :=
  { s with cursor := c, notes := n, events := s.events.push (.leaf leaf) }

private theorem taken_keep (hw : s.word = "") (c : Cursor) (n : Notes) (leaf : Leaf) :
    (s.keep c n leaf).taken = s.taken ++ leaf.text.toList := by
  rw [taken_of_word hw, taken_of_word (by exact hw), leafChars_of_events (s := s) [leaf] (by simp [keep])]
  simp

/-- What a construct whose end is a test has read, its leaf, and the state it leaves behind. -/
theorem verbatim_read {test : Cursor → Bool} {leaf : Leaf} (hc : s.cursor.Countable) (hr : s.cursor.Rests o)
    (opening : s.cursor.Shows s.notes.startMarker) (asked : ∀ d, ends d s.notes = .ok (test d) s.notes)
    (h : s.verbatim o ends name = .ok leaf s') :
    ∃ body src k n, readBody o ends (s.inside o) s.cursor.line "" s.notes = .ok body s.notes ∧
      Reading.Follows o s.cursor.text (s.cursor.before ++ s.notes.startMarker.toList) src k
        ⟨body.cursor, body.line, body.text, n⟩ ∧
      s.cursor.index < body.cursor.index ∧
      ((test body.cursor = true ∧
          leaf.text = s.notes.startMarker ++ body.text ++
            (if body.cursor.line ≠ body.line && s.notes.endMarker.toList.head? ≠ some '\n' then "\n" else "") ++
            s.notes.endMarker ∧
          s' = { s with
            cursor := body.cursor
            notes :=
              if !s.notes.endMarker.isEmpty && body.cursor.current? ≠ s.notes.endMarker.toList.head? then
                s.notes.suppress
              else s.notes }) ∨
        (test body.cursor = false ∧ body.cursor.text.size ≤ body.cursor.index ∧
          leaf.text = s.notes.startMarker ++ body.text ∧
          s' =
            if s.notes.endMarker.toList.any fun c => !isWhiteSpace c then
              report { s with cursor := body.cursor } (.unterminated name) s.cursor.line
            else { s with cursor := body.cursor })) := by
  obtain ⟨body, notes, hb, -, -, hcases⟩ := verbatim_cases h
  obtain ⟨body', hb', htest, hnone⟩ := readBody_of_test asked (s.inside o) s.cursor.line ""
  rw [hb] at hb'
  injection hb' with hbody hnotes
  subst hbody hnotes
  obtain ⟨src, k, n, hf⟩ := follows_body hc hr opening hb
  have hindex := (reaches_verbatim h).2
  refine ⟨body, src, k, n, hb, hf, ?_⟩
  rcases hcases with ⟨hterm, hleaf, rfl⟩ | ⟨hterm, hleaf, rfl⟩
  · exact ⟨hindex, Or.inl ⟨htest.trans hterm, hleaf, rfl⟩⟩
  · refine ⟨?_, Or.inr ⟨htest.trans hterm, Array.getElem?_eq_none_iff.1 (hnone hterm), hleaf, rfl⟩⟩
    split at hindex <;> exact hindex

/-- What a construct whose end is a test has read, and what it leaves behind. -/
private theorem construct_read {test : Cursor → Bool} (hc : s.cursor.Countable) (hr : s.cursor.Rests o)
    (opening : s.cursor.Shows s.notes.startMarker) (asked : ∀ d, ends d s.notes = .ok (test d) s.notes)
    (h : s.construct o ends name true = .ok () s') :
    ∃ body src k n leaf, readBody o ends (s.inside o) s.cursor.line "" s.notes = .ok body s.notes ∧
      Reading.Follows o s.cursor.text (s.cursor.before ++ s.notes.startMarker.toList) src k
        ⟨body.cursor, body.line, body.text, n⟩ ∧
      s.cursor.index < body.cursor.index ∧
      ((test body.cursor = true ∧
          leaf.text = s.notes.startMarker ++ body.text ++
            (if body.cursor.line ≠ body.line && s.notes.endMarker.toList.head? ≠ some '\n' then "\n" else "") ++
            s.notes.endMarker ∧
          s' = skipRest (s.keep body.cursor
            (if !s.notes.endMarker.isEmpty && body.cursor.current? ≠ s.notes.endMarker.toList.head? then
              s.notes.suppress
            else s.notes) leaf) o s.notes.endMarker.length) ∨
        (test body.cursor = false ∧ body.cursor.text.size ≤ body.cursor.index ∧
          leaf.text = s.notes.startMarker ++ body.text ∧
          s' = skipRest
            (if s.notes.endMarker.toList.any fun c => !isWhiteSpace c then
              report (s.keep body.cursor s.notes leaf) (.unterminated name) s.cursor.line
            else s.keep body.cursor s.notes leaf) o s.notes.endMarker.length)) := by
  obtain ⟨leaf, s₁, hv, rfl⟩ := construct_cases h
  obtain ⟨body, src, k, n, hb, hf, hindex, hcases⟩ := verbatim_read hc hr opening asked hv
  rw [if_pos rfl]
  refine ⟨body, src, k, n, leaf, hb, hf, hindex, ?_⟩
  rcases hcases with ⟨htest, hleaf, rfl⟩ | ⟨htest, hend, hleaf, rfl⟩
  · refine Or.inl ⟨htest, hleaf, ?_⟩
    simp only
    split <;> rfl
  · refine Or.inr ⟨htest, hend, hleaf, ?_⟩
    split <;> rfl

/-- The text has run out inside a construct: what was taken is the text up to the newlines at its end. -/
structure CutShort (s : State) (passed new : List Char) (k : Nat) (s' : State) : Prop where
  text : s'.cursor.text = s.cursor.text
  left : ¬ s'.Inside
  whole : s.cursor.text.toList = s.cursor.before ++ passed ++ List.replicate k '\n'
  last : (s.cursor.before ++ passed).getLast? ≠ some '\n'
  taken : s'.taken = s.taken ++ new
  cut : s'.cut = true

theorem CutShort.of_flush {n : Notes} {passed new : List Char} {k : Nat}
    (h : CutShort (flush { s with notes := n } L) passed new k s') : CutShort s passed new k s' := by
  obtain ⟨ht, hleft, hwhole, hlast, htaken, hcut⟩ := h
  rw [cursor_flush] at ht hwhole hlast
  rw [taken_flush] at htaken
  exact ⟨ht, hleft, hwhole, hlast, htaken, hcut⟩

private theorem size_le_skipRest (h : s.cursor.text.size ≤ s.cursor.index) (length : Nat) :
    (s.skipRest o length).moveOn.cursor.text.size ≤ (s.skipRest o length).moveOn.cursor.index := by
  have hr := reaches_skipRest s o length
  show (s.skipRest o length).cursor.text.size ≤ (s.skipRest o length).cursor.index + 1
  rw [hr.text]
  exact Nat.le_succ_of_le (Nat.le_trans h hr.index)

/-- A construct with a closing delimiter is passed and taken, unless the text cuts it short. -/
private theorem construct_delimited {test : Cursor → Bool} (hc : s.cursor.Countable) (hr : s.cursor.Rests o)
    (hw : s.word = "") (hn : s.notes.suppressed = false) (opening : s.cursor.Shows s.notes.startMarker)
    (asked : ∀ d, ends d s.notes = .ok (test d) s.notes) (shown : ∀ d, test d = true → d.Shows s.notes.endMarker)
    (visible : (s.notes.endMarker.toList.any fun ch => !isWhiteSpace ch) = true)
    (h : s.construct o ends name true = .ok () s') :
    (∃ passed new, Thinned passed new ∧ Passes s passed new (settle s.cursor s')) ∨
      ∃ passed new k, Thinned passed new ∧ CutShort s passed new k (settle s.cursor s') := by
  obtain ⟨body, src, k, n, leaf, -, hf, -, ⟨htest, hleaf, rfl⟩ | ⟨-, hend, hleaf, rfl⟩⟩ :=
    construct_read hc hr opening asked h
  all_goals
    have htext : body.cursor.text = s.cursor.text := hf.text_eq
    have hbefore : body.cursor.before =
      s.cursor.before ++ s.notes.startMarker.toList ++ src ++ List.replicate k '\n' := hf.before_eq
  · -- the closing delimiter stands where the reading stopped
    have hshow : body.cursor.Shows s.notes.endMarker := shown body.cursor htest
    rw [hshow.current?_eq, if_neg (by simp), settle_of_moves _ (by rw [notes_skipRest]; exact hn)]
    refine Or.inl ⟨s.notes.startMarker.toList ++ (src ++ List.replicate k '\n') ++ s.notes.endMarker.toList,
      leaf.text.toList, ?_, ?_, ?_, ?_, ?_⟩
    · have hline : (if body.cursor.line ≠ body.line && s.notes.endMarker.toList.head? ≠ some '\n' then "\n"
          else "").toList = if body.cursor.line = body.line then [] else ['\n'] := by
        rw [← hshow.current?_eq]
        by_cases hl : body.cursor.line = body.line <;> simp [hl, hshow.current?_ne]
      rw [hleaf, String.toList_append, String.toList_append, String.toList_append, hline]
      refine Thinned.append ?_ (.refl _)
      rw [List.append_assoc]
      exact (Thinned.refl _).append hf.thinned_newlines
    · exact (reaches_skipRest ..).text.trans htext
    · have hb := before_skipRest (o := o) (s := s.keep body.cursor s.notes leaf) hshow hn
      rw [hb, show (s.keep body.cursor s.notes leaf).cursor = body.cursor from rfl, hbefore]
      simp
    · exact (taken_skipRest ..).trans (taken_keep hw ..)
    · exact cut_skipRest ..
  · -- the text has run out
    rw [if_pos visible, settle_of_moves _ (by rw [notes_skipRest]; exact hn)]
    refine Or.inr ⟨s.notes.startMarker.toList ++ src, leaf.text.toList, k, ?_, ?_, ?_, ?_, ?_, ?_, ?_⟩
    · rw [hleaf, String.toList_append]
      exact (Thinned.refl _).append hf.thinned
    · exact (reaches_skipRest ..).text.trans htext
    · exact Nat.not_lt.2 (size_le_skipRest (by exact hend) _)
    · rw [← List.append_assoc, ← hbefore, ← htext]
      exact (Cursor.before_of_size_le hend).symm
    · rw [← List.append_assoc]
      exact hf.last
    · exact (taken_skipRest ..).trans (taken_keep hw body.cursor s.notes leaf)
    · refine (cut_skipRest ..).trans ?_
      simp [cut, report, Problem.isUnterminated]

/-- A comment to the end of its line is passed and taken. -/
private theorem construct_lineEnd (hc : s.cursor.Countable) (hr : s.cursor.Rests o) (hw : s.word = "")
    (hn : s.notes.suppressed = false) (opening : s.cursor.Shows s.notes.startMarker)
    (marker : s.notes.endMarker = "\n") (asked : ∀ d, ends d s.notes = .ok (d.line ≠ s.cursor.line) s.notes)
    (h : s.construct o ends name true = .ok () s') :
    ∃ passed new, Thinned passed new ∧ Passes s passed new (settle s.cursor s') := by
  obtain ⟨body, src, k, n, leaf, hb, hf, hindex, ⟨htest, hleaf, rfl⟩ | ⟨htest, hend, hleaf, rfl⟩⟩ :=
    construct_read hc hr opening asked h
  all_goals
    have htext : body.cursor.text = s.cursor.text := hf.text_eq
    have hbefore : body.cursor.before =
      s.cursor.before ++ s.notes.startMarker.toList ++ src ++ List.replicate k '\n' := hf.before_eq
    have hline : body.line = s.cursor.line := line_readBody asked hb
    rw [← hline] at htest
  · -- the newlines after the comment have been crossed, and the cursor stays behind them
    have hne : body.cursor.line ≠ body.line := by simpa using htest
    have hcur : body.cursor.current? ≠ some '\n' := hf.rests.2
    rw [if_pos (by simp [marker, hcur]), skipRest_of_stays rfl,
      settle_of_stays (by rfl) (by exact Nat.ne_of_gt hindex)]
    refine ⟨s.notes.startMarker.toList ++ (src ++ List.replicate k '\n'), leaf.text.toList, ?_, htext, ?_, ?_, rfl⟩
    · have hchars : leaf.text.toList = s.notes.startMarker.toList ++ (body.text.toList ++ ['\n']) := by
        rw [hleaf, marker]
        simp
      have hpass := hf.thinned_newlines
      rw [if_neg hne] at hpass
      rw [hchars]
      exact (Thinned.refl _).append hpass
    · show body.cursor.before = _
      rw [hbefore]
      simp
    · exact taken_keep hw ..
  · -- the text has run out on the line of the comment
    have hk : k = 0 := hf.line_eq_iff.1 (by simpa using htest)
    rw [hk, List.replicate_zero, List.append_nil, Cursor.before_of_size_le hend] at hbefore
    rw [if_neg (by rw [marker]; decide +kernel), settle_of_moves _ (by rw [notes_skipRest]; exact hn)]
    refine ⟨s.notes.startMarker.toList ++ src, leaf.text.toList, ?_, ?_, ?_, ?_, ?_⟩
    · rw [hleaf, String.toList_append]
      exact (Thinned.refl _).append hf.thinned
    · exact (reaches_skipRest ..).text.trans htext
    · rw [Cursor.before_of_size_le (size_le_skipRest (by exact hend) _), ← List.append_assoc, ← hbefore]
      exact congrArg Array.toList (reaches_skipRest ..).text
    · exact (taken_skipRest ..).trans (taken_keep hw ..)
    · exact cut_skipRest ..

theorem passes_construct (hc : s.cursor.Countable) (hr : s.cursor.Rests o) (hw : s.word = "")
    (hn : s.notes.suppressed = false) (opening : s.cursor.Shows s.notes.startMarker)
    (closing : Closing ends s.cursor s.notes) (h : s.construct o ends name true = .ok () s') :
    (∃ passed new, Thinned passed new ∧ Passes s passed new (settle s.cursor s')) ∨
      ∃ passed new k, Thinned passed new ∧ CutShort s passed new k (settle s.cursor s') := by
  cases closing with
  | delimiter test asked shown visible => exact construct_delimited hc hr hw hn opening asked shown visible h
  | lineEnd marker asked => exact Or.inl (construct_lineEnd hc hr hw hn opening marker asked h)

end State

end LexTree
