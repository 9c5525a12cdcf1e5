import LexTree.Language.Dull
import LexTree.Proofs.BlockEnds

/-!
# Requests to stay from predicates that decline

A predicate that declines may still ask the cursor to stay.  In a language whose predicates all decline every character
is plain, so the request matters only where a plain character moves the cursor of itself: at a newline, which is crossed
together with the blanks and the blank lines after it.  There the last character crossed is taken again
(`step_of_stays`).  If that is a blank which leaves no trace, nothing has changed and the scan is that of a language
which looks for nothing (`Runs.of_muted`); otherwise the line is counted twice, or the blank is kept twice.
-/

namespace LexTree

/-- The characters crossed together with a newline at `i`: the blanks and newlines after it. -/
def crossed (text : Array Char) (i : Nat) : List Char :=
  (text.toList.drop (i + 1)).takeWhile fun ch => ch = '\n' || isBlank ch

namespace Language

/-- The predicates that look for a boundary all answer no. -/
def Declines (L : Language) : Prop :=
  ∀ (b : Boundary) (c : Cursor) (n : Notes), ∃ n', L.predicate b.edge c n = .ok false n'

/-- The language with predicates that look for nothing and ask for nothing. -/
def muted (L : Language) : Language := { L with predicate := fun _ => .never }

/-- Where a predicate asks the cursor to stay at a newline of the text, the last character crossed, if any is, is a
blank that leaves no leaf. -/
def StaysUnseen (L : Language) (o : Options) (text : Array Char) : Prop :=
  ∀ (c : Cursor) (n n' : Notes), c.text = text → c.current? = some '\n' → n.suppressed = false →
    L.dispatch c n = .ok none n' → n'.suppressed = true → ∀ ch, (crossed text c.index).getLast? = some ch →
      isBlank ch = true ∧ o.includeWhitespace = false ∧ L.isWordChar ch = false

private theorem Declines.dispatch_eq {L : Language} (h : L.Declines) (c : Cursor) (n : Notes) :
    ∃ n', L.dispatch c n = .ok none n' := by
  suffices key : ∀ (bs : List Boundary) (n : Notes), ∃ n', L.firstBoundary c bs n = .ok none n' from
    key Boundary.order n
  intro bs
  induction bs with
  | nil => exact fun n => ⟨n.clearMarkers, rfl⟩
  | cons b bs ih =>
    intro n
    obtain ⟨n₁, h₁⟩ := h b c n.clearMarkers
    rw [firstBoundary_of_false h₁]
    exact ih n₁

private theorem dispatch_muted (L : Language) (c : Cursor) (n : Notes) :
    L.muted.dispatch c n = .ok none n.clearMarkers := rfl

end Language

/-! ### What a newline crosses -/

theorem mem_crossed {text : Array Char} {i : Nat} {ch : Char} (h : ch ∈ crossed text i) :
    ch = '\n' ∨ isBlank ch = true := by
  simpa using List.all_eq_true.1 List.all_takeWhile ch h

private theorem takeWhile_drop_blankRunEnd (text : Array Char) (i : Nat) :
    (text.toList.drop i).takeWhile (fun ch => ch = '\n' || isBlank ch) =
      (text.toList.drop i).takeWhile isBlank ++
        (text.toList.drop (blankRunEnd text i)).takeWhile (fun ch => ch = '\n' || isBlank ch) := by
  fun_induction blankRunEnd text i with
  | case1 i hi hb ih =>
    rw [drop_eq_cons (Array.getElem?_eq_getElem hi), List.takeWhile_cons, if_pos (by simp [hb]), ih,
      List.takeWhile_cons, if_pos hb, List.cons_append]
  | case2 i hi hb => rw [drop_eq_cons (Array.getElem?_eq_getElem hi), List.takeWhile_cons_of_neg hb, List.nil_append]
  | case3 i hi =>
    rw [List.drop_eq_nil_of_le (by simpa using hi)]
    rfl

namespace State

variable {L : Language} {o : Options} {s t : State} {heads : List State} {n : Notes}

theorem index_newline (s : State) (o : Options) :
    (s.newline o).cursor.index = s.cursor.index + (crossed s.cursor.text s.cursor.index).length := by
  have hlen : ∀ s : State, (crossed s.cursor.text s.cursor.index).length + s.cursor.index + 1 =
      blankRunEnd s.cursor.text (s.cursor.index + 1) +
        ((s.cursor.text.toList.drop (blankRunEnd s.cursor.text (s.cursor.index + 1))).takeWhile
          fun ch => ch = '\n' || isBlank ch).length := by
    intro s
    rw [crossed, takeWhile_drop_blankRunEnd, ← Cursor.blankRun_eq, List.length_append,
      ← Cursor.add_length_blankRun s.cursor]
    omega
  fun_induction newline s o with
  | case1 s next hp ih =>
    have hi : next.cursor.index + 1 = blankRunEnd s.cursor.text (s.cursor.index + 1) := index_crossNewline s o
    have ht : next.cursor.text = s.cursor.text := text_crossNewline s o
    -- what the next newline crosses is what is left, less that newline
    have h := hlen s
    rw [Cursor.peek?, ht, hi] at hp
    rw [drop_eq_cons hp, List.takeWhile_cons, if_pos (by simp), List.length_cons] at h
    rw [ih]
    simp only [ht, hi, crossed] at h ⊢
    omega
  | case2 s next hp =>
    have hi : next.cursor.index + 1 = blankRunEnd s.cursor.text (s.cursor.index + 1) := index_crossNewline s o
    have ht : next.cursor.text = s.cursor.text := text_crossNewline s o
    have h := hlen s
    have hstop : ((s.cursor.text.toList.drop (blankRunEnd s.cursor.text (s.cursor.index + 1))).takeWhile
        fun ch => ch = '\n' || isBlank ch) = [] := by
      rw [Cursor.peek?, ht, hi] at hp
      cases hch : s.cursor.text[blankRunEnd s.cursor.text (s.cursor.index + 1)]? with
      | none => rw [List.drop_eq_nil_of_le (by simpa using hch), List.takeWhile_nil]
      | some ch =>
        rw [hch] at hp
        have hb := not_blank_of_blankRunEnd hch
        rw [drop_eq_cons hch, List.takeWhile_cons_of_neg (by simpa [hb] using hp)]
    rw [hstop, List.length_nil] at h
    show next.cursor.index = _
    omega

/-- Crossing newlines comes to rest on the last character crossed. -/
private theorem current?_newline (s : State) (o : Options) (h : crossed s.cursor.text s.cursor.index ≠ []) :
    (s.newline o).cursor.current? = (crossed s.cursor.text s.cursor.index).getLast? := by
  have hpos := List.length_pos_iff.2 h
  have hprefix : crossed s.cursor.text s.cursor.index <+: s.cursor.text.toList.drop (s.cursor.index + 1) :=
    List.takeWhile_prefix _
  rw [Cursor.current?, (reaches_newline s o).text, index_newline, List.getLast?_eq_getElem?,
    List.getElem?_eq_getElem (by omega), ← List.prefix_iff_getElem?.1 hprefix, List.getElem?_drop,
    Array.getElem?_toList]
  congr 1
  omega

/-! ### Plain characters under other notes -/

/-- The state with its notes exchanged. -/
def withNotes (s : State) (n : Notes) : State := { s with notes := n }

private theorem flush_withNotes (s : State) (n : Notes) (L : Language) :
    (s.withNotes n).flush L = (s.flush L).withNotes n := by
  unfold flush
  rw [show (s.withNotes n).word = s.word from rfl]
  split <;> rfl

private theorem newline_withNotes (s : State) (n : Notes) (o : Options) :
    (s.withNotes n).newline o = (s.newline o).withNotes n := by
  have hcross : ∀ s : State, (s.withNotes n).crossNewline o = (s.crossNewline o).withNotes n := by
    intro s
    rw [crossNewline_eq, cursor_crossNewline, crossNewline_eq s, cursor_crossNewline]
    rfl
  fun_induction newline s o with
  | case1 s next h ih =>
    rw [newline, hcross, dif_pos (show (next.withNotes n).cursor.peek? 1 = some '\n' from h)]
    exact ih
  | case2 s next h => rw [newline, hcross, dif_neg (show ¬ (next.withNotes n).cursor.peek? 1 = some '\n' from h)]

/-- A plain character is taken without regard to the notes. -/
private theorem plain_withNotes (s : State) (n : Notes) (L : Language) (o : Options) :
    (s.withNotes n).plain L o = (s.plain L o).withNotes n := by
  unfold plain
  rw [show (s.withNotes n).cursor = s.cursor from rfl]
  split
  · rfl
  · split
    · rfl
    · simp only
      rw [flush_withNotes]
      split
      · exact newline_withNotes ..
      · split <;> rfl

private theorem plain_of_unseen {ch : Char} (here : s.cursor.current? = some ch) (hword : s.word = "")
    (hb : isBlank ch = true) (ho : o.includeWhitespace = false) (hw : L.isWordChar ch = false) : s.plain L o = s := by
  have hn : ch ≠ '\n' := by
    rintro rfl
    cases isBlank_newline.symm.trans hb
  have hflush : s.flush L = s := if_pos (by simp [hword])
  simp [plain, here, hw, hn, hb, ho, hflush]

/-- Only a newline moves the cursor of itself. -/
private theorem newline_of_plain_moves (h : (s.plain L o).cursor.index ≠ s.cursor.index) :
    s.cursor.current? = some '\n' ∧ s.plain L o = (s.flush L).newline o := by
  cases hch : s.cursor.current? with
  | none => simp [plain, hch] at h
  | some ch =>
    by_cases hn : ch = '\n'
    · subst hn
      cases hw : L.isWordChar '\n' with
      | true => simp [plain, hch, hw] at h
      | false => exact ⟨rfl, plain_of_newline hw hch⟩
    · rw [cursor_plain_of_ne hch hn] at h
      exact absurd rfl h

/-! ### Steps -/

private theorem settle_of_index_eq {before : Cursor} (hi : s.cursor.index = before.index)
    (hd : s.cursor.depth = before.depth) : settle before s = s.moveOn := by
  obtain ⟨-, -, h | h⟩ | ⟨h, -⟩ := settle_cases before s
  · exact absurd hi h
  · omega
  · exact h

/-- Where no boundary is found, a step takes a plain character and settles as it is asked to. -/
theorem step_of_none (found : L.dispatch s.cursor s.notes.fresh = .ok none n) :
    s.step L o = .ok () (settle s.cursor ((s.plain L o).withNotes n)) := by
  rw [step_eq_of_none found, ← plain_withNotes]
  rfl

private theorem step_muted (s : State) (L : Language) (o : Options) :
    s.step L.muted o = .ok () ((s.plain L o).moveOn.withNotes s.notes.fresh.clearMarkers) := by
  rw [step_of_none (L.dispatch_muted s.cursor s.notes.fresh), settle_of_moves _ rfl]
  rfl

/-- A character that leaves the cursor where it is, is passed whatever the predicates ask. -/
private theorem step_of_rests (hL : L.Declines) (h : (s.plain L o).cursor.index = s.cursor.index) :
    ∃ n, s.step L o = .ok () ((s.plain L o).moveOn.withNotes n) := by
  obtain ⟨n, found⟩ := hL.dispatch_eq s.cursor s.notes.fresh
  refine ⟨n, ?_⟩
  rw [step_of_none found, settle_of_index_eq (s := (s.plain L o).withNotes n) h (reaches_plain s L o).depth]
  rfl

/-- A step that is asked to stay at a newline ends on the last character crossed, which the next step takes again. -/
theorem step_of_stays (found : L.dispatch s.cursor s.notes.fresh = .ok none n) (stays : n.suppressed = true)
    (moves : (s.plain L o).cursor.index ≠ s.cursor.index) :
    s.step L o = .ok () ((s.plain L o).withNotes n) ∧ s.cursor.current? = some '\n' ∧ (s.plain L o).word = "" ∧
      ∃ ch, (s.plain L o).cursor.current? = some ch ∧
        (crossed s.cursor.text s.cursor.index).getLast? = some ch := by
  obtain ⟨here, hplain⟩ := newline_of_plain_moves moves
  have hindex := index_newline (s.flush L) o
  have hlast := current?_newline (s.flush L) o
  rw [cursor_flush, ← hplain] at hindex hlast
  have hmore : crossed s.cursor.text s.cursor.index ≠ [] := by
    intro h
    rw [h] at hindex
    exact moves hindex
  refine ⟨?_, here, ?_, _, ?_, List.getLast?_eq_some_getLast hmore⟩
  · rw [step_of_none found, settle_of_stays (s := (s.plain L o).withNotes n) stays moves]
  · rw [hplain, (frame_newline ..).2.1, word_flush]
  · rw [hlast hmore, List.getLast?_eq_some_getLast hmore]

/-- Where staying goes unseen, one or two steps lead where the step of the muted language leads. -/
private theorem runs_of_declines (hL : L.Declines) (hs : L.StaysUnseen o s.cursor.text) (hin : s.Inside) :
    ∃ heads n, Runs L o s heads ((s.plain L o).moveOn.withNotes n) := by
  by_cases hi : (s.plain L o).cursor.index = s.cursor.index
  · obtain ⟨n, hstep⟩ := step_of_rests hL hi
    exact ⟨[s], n, .step hin hstep (.done _)⟩
  obtain ⟨n, found⟩ := hL.dispatch_eq s.cursor s.notes.fresh
  cases stays : n.suppressed with
  | false =>
    have hstep := step_of_none (o := o) found
    rw [settle_of_moves (s := (s.plain L o).withNotes n) s.cursor stays] at hstep
    exact ⟨[s], n, .step hin hstep (.done _)⟩
  | true =>
    -- the last character crossed is a blank, which the second step drops
    obtain ⟨hstep, here, hword, ch, hch, hlast⟩ := step_of_stays found stays hi
    obtain ⟨hb, ho, hw⟩ := hs s.cursor _ n rfl here rfl found stays ch hlast
    have hagain : ((s.plain L o).withNotes n).plain L o = (s.plain L o).withNotes n :=
      plain_of_unseen hch hword hb ho hw
    obtain ⟨n', hstep'⟩ := step_of_rests hL (congrArg (·.cursor.index) hagain)
    rw [hagain] at hstep'
    exact ⟨_, n', .step hin hstep (.step (Cursor.lt_size_of_current hch) hstep' (.done _))⟩

/-! ### Runs -/

/-- Where staying goes unseen, a language whose predicates decline follows the muted language to its end. -/
theorem Runs.of_muted (hL : L.Declines) (h : Runs L.muted o s heads t) (hs : L.StaysUnseen o s.cursor.text)
    (n : Notes) : ∃ heads' n', Runs L o (s.withNotes n) heads' (t.withNotes n') := by
  induction h generalizing n with
  | done s => exact ⟨[], n, .done _⟩
  | @step s s' t heads hin h rest ih =>
    rw [step_muted] at h
    injection h with _ h
    subst h
    obtain ⟨heads₁, n₁, h₁⟩ := runs_of_declines (s := s.withNotes n) hL hs hin
    rw [plain_withNotes] at h₁
    have htext : (s.plain L o).cursor.text = s.cursor.text := (reaches_plain s L o).text
    obtain ⟨heads₂, n₂, h₂⟩ := ih (htext.symm ▸ hs) n₁
    exact ⟨heads₁ ++ heads₂, n₂, h₁.trans h₂⟩

end State

open State in
/-- A language whose predicates decline, and which stays unseen, scans as the muted language does. -/
private theorem scan_eq_muted {L : Language} {o : Options} {text : String} (hL : L.Declines)
    (hs : L.StaysUnseen o text.toList.toArray) (hvalid : L.validate = .ok ()) (ho : o.validate = .ok ()) :
    ∃ out, scan L.muted o text = .ok out ∧ scan L o text = .ok out := by
  obtain ⟨heads, t, hr, ⟨ht, -⟩ | ⟨-, e, u, herr, -⟩⟩ := run_ends L.muted o (start text)
  · obtain ⟨heads', n, hr'⟩ := hr.of_muted hL hs {}
    refine ⟨t.finish L, ?_, ?_⟩
    · exact scan_eq_ok_iff.2 ⟨hvalid, ho, heads, t, hr, ht, rfl⟩
    · refine scan_eq_ok_iff.2 ⟨hvalid, ho, heads', t.withNotes n, hr', ht, ?_⟩
      rw [finish, finish, flush_withNotes]
      rfl
  · rw [step_muted] at herr
    cases herr

/-- A request to stay from a predicate that declines changes nothing where it goes unseen.  Two languages that differ in
their predicates alone, and whose predicates all decline, scan a text alike: the scans fail alike, or give the same
tree and the same diagnostics.  The requests of either are arbitrary but for this: at a newline that is crossed together
with blanks or newlines after it, the last of which the next step takes again, that has to be a blank that leaves no
leaf. -/
theorem scan_declined {L : Language} {predicate : Edge → Predicate} {o : Options} {text : String}
    (hL : L.Declines) (hL' : Language.Declines { L with predicate }) (hs : L.StaysUnseen o text.toList.toArray)
    (hs' : Language.StaysUnseen { L with predicate } o text.toList.toArray) :
    scan { L with predicate } o text = scan L o text ∧
      (L.validate = .ok () → o.validate = .ok () → ∃ out, scan L o text = .ok out) := by
  have both : L.validate = .ok () → o.validate = .ok () →
      ∃ out, scan { L with predicate } o text = .ok out ∧ scan L o text = .ok out := by
    intro hvalid ho
    obtain ⟨out, hm, hout⟩ := scan_eq_muted hL hs hvalid ho
    obtain ⟨out', hm', hout'⟩ := scan_eq_muted hL' hs' hvalid ho
    -- both languages are muted to the same one
    rw [show Language.muted { L with predicate } = L.muted from rfl, hm] at hm'
    injection hm' with hm'
    exact ⟨out, hm' ▸ hout', hout⟩
  refine ⟨?_, fun hvalid ho => ?_⟩
  · cases hvalid : L.validate with
    | error e =>
      unfold scan
      rw [show Language.validate { L with predicate } = L.validate from rfl, hvalid]
      rfl
    | ok u =>
      cases ho : o.validate with
      | error e =>
        unfold scan
        rw [show Language.validate { L with predicate } = L.validate from rfl, hvalid, ho]
        rfl
      | ok u =>
        obtain ⟨out, h', h⟩ := both hvalid ho
        rw [h', h]
  · obtain ⟨out, -, h⟩ := both hvalid ho
    exact ⟨out, h⟩

/-- Declines everywhere, and asks the cursor to stay. -/
def Predicate.stay : Predicate := fun _ n => .ok false n.suppress

private theorem declines_dull : Dull.language.Declines := by
  intro b c n
  cases b <;> exact ⟨n, rfl⟩

private theorem declines_stay (L : Language) : Language.Declines { L with predicate := fun _ => .stay } :=
  fun _ _ n => ⟨n.suppress, rfl⟩

/-- Asked to stay everywhere, the scan takes the blank before `b` again, and nothing is seen of it. -/
theorem scan_declined_blanks :
    (crossed "a\n  b\nc".toList.toArray 1).getLast? = some ' ' ∧
      scan { Dull.language with predicate := fun _ => .stay } {} "a\n  b\nc" = scan Dull.language {} "a\n  b\nc" ∧
      ∃ out, scan Dull.language {} "a\n  b\nc" = .ok out := by
  have unseen : ∀ L : Language, L.isWordChar ' ' = false → L.StaysUnseen {} "a\n  b\nc".toList.toArray := by
    rintro L hw c n n' ht here - - - ch hch
    have newlines : ∀ i < 7, "a\n  b\nc".toList.toArray[i]? = some '\n' →
        (crossed "a\n  b\nc".toList.toArray i).getLast?.all (· = ' ') = true := by decide +kernel
    rw [Cursor.current?, ht] at here
    have hblank := newlines c.index (Array.getElem?_eq_some_iff.1 here).1 here
    rw [hch] at hblank
    obtain rfl : ch = ' ' := by simpa using hblank
    exact ⟨rfl, rfl, hw⟩
  obtain ⟨hsame, hok⟩ := scan_declined declines_dull (declines_stay Dull.language)
    (unseen Dull.language (by decide)) (unseen { Dull.language with predicate := fun _ => .stay } (by decide))
  exact ⟨by decide +kernel, hsame, hok rfl rfl⟩

/-- Where the last character crossed is seen, it is taken twice: the second newline counts as two lines, and the blank
before `a` is kept once more. -/
theorem stay_takes_twice :
    Dull.language.Declines ∧ Language.Declines { Dull.language with predicate := fun _ => .stay } ∧
      Dull.language.isWordChar '\n' = false ∧
      (scan Dull.language {} "\n\na").toOption.map (fun out => out.root.flatten.toList.map Leaf.line) = some [3] ∧
      (scan { Dull.language with predicate := fun _ => .stay } {} "\n\na").toOption.map
        (fun out => out.root.flatten.toList.map Leaf.line) = some [4] ∧
      (scan Dull.language { includeWhitespace := true } "\n  a").toOption.map
        (fun out => out.root.flatten.toList.map Leaf.text) = some ["  ", "a"] ∧
      (scan { Dull.language with predicate := fun _ => .stay } { includeWhitespace := true } "\n  a").toOption.map
        (fun out => out.root.flatten.toList.map Leaf.text) = some ["  ", " ", "a"] := by
  refine ⟨declines_dull, declines_stay Dull.language, by decide, ?_, ?_, ?_, ?_⟩
  all_goals decide +kernel

end LexTree
