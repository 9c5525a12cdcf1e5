import LexTree.Proofs.Declining
import LexTree.Proofs.Reports

/-!
# What strings and comments cover

A step passes a string or comment, one character, a newline with the blanks and newlines after it, or nothing where it
closes a block (`Moves`).  So the steps of a run cover the text with the spans of its strings and comments and leave the
other characters outside.  The spans are where the grammar has them: each is the extent of the form that opens at its
start (`Runs.spans_open`), and outside the spans no form opens (`Runs.unopened`).
-/

namespace LexTree

/-! ### Spans -/

/-- Whether an index lies in one of the spans, each of which goes from an index up to another. -/
def covered (spans : List (Nat × Nat)) (i : Nat) : Bool := spans.any fun p => p.1 ≤ i && i < p.2

/-- The characters of a text, without those in the spans, each in its place. -/
def outside (spans : List (Nat × Nat)) (cs : List Char) : List (Option Char) :=
  cs.mapIdx fun i c => if covered spans i then none else some c

private theorem covered_append (spans new : List (Nat × Nat)) (i : Nat) :
    covered (spans ++ new) i = (covered spans i || covered new i) := List.any_append

private theorem covered_eq_false {spans : List (Nat × Nat)} {i : Nat} (h : ∀ p ∈ spans, p.2 ≤ i) :
    covered spans i = false := by
  rw [covered, List.any_eq_false]
  intro p hp
  have := h p hp
  simp only [Bool.and_eq_true, decide_eq_true_eq]
  omega

/-- Spans that lie behind some characters leave these as they are, and earlier spans leave out no later characters. -/
private theorem outside_append {spans new : List (Nat × Nat)} {cs ds : List Char} (hold : ∀ p ∈ spans, p.2 ≤ cs.length)
    (hnew : ∀ p ∈ new, cs.length ≤ p.1) :
    outside (spans ++ new) (cs ++ ds) = outside spans cs ++
      ds.mapIdx fun i c => if covered new (i + cs.length) then none else some c := by
  rw [outside, List.mapIdx_append]
  congr 1
  · refine List.mapIdx_eq_mapIdx_iff.2 fun i hi => ?_
    have hnone : covered new i = false := by
      rw [covered, List.any_eq_false]
      intro p hp
      have := hnew p hp
      simp only [Bool.and_eq_true, decide_eq_true_eq]
      omega
    rw [covered_append, hnone, Bool.or_false]
  · refine List.mapIdx_eq_mapIdx_iff.2 fun i hi => ?_
    rw [covered_append, covered_eq_false fun p hp => Nat.le_trans (hold p hp) (Nat.le_add_left _ _), Bool.false_or]

/-! ### Delimiters of scopes -/

/-- A marker is the character under the cursor, which belongs to no word and is neither a keyword, a blank nor a
newline. -/
structure Language.Marks (L : Language) (c : Cursor) (marker : String) (ch : Char) : Prop where
  here : c.current? = some ch
  marker : marker = String.singleton ch
  no_word : L.isWordChar ch = false
  no_keyword : L.keywords.contains (String.singleton ch) = false
  no_blank : isBlank ch = false
  one_line : ch ≠ '\n'

namespace Bundled

variable {L : Language} {c : Cursor} {n n' : Notes}

theorem isWordChar_eq (hL : L ∈ languages) : L.isWordChar = isWordChar := by
  simp only [languages, List.mem_cons, List.not_mem_nil, or_false] at hL
  rcases hL with rfl | rfl | rfl <;> rfl

/-- A scope that is opened has a marker. -/
private theorem marks_opened (hL : L ∈ languages) (found : L.dispatch c n = .ok (some .scopeStart) n') :
    ∃ ch, L.Marks c n'.startMarker ch := by
  simp only [languages, List.mem_cons, List.not_mem_nil, or_false] at hL
  rcases hL with rfl | rfl | rfl
  · rcases Java.dispatch_cases c n with
      ⟨quote, -, -, hd⟩ | ⟨-, hd⟩ | ⟨-, hd⟩ | ⟨hc, hd⟩ | ⟨-, hd⟩ | ⟨-, -, hd⟩
    all_goals
      rw [found] at hd
      cases hd
    exact ⟨'\x7b', hc, rfl, by decide, KeywordTable.contains_ofWords_of_not_mem (by decide), by decide, by decide⟩
  · rcases Python.dispatch_cases c n with
      ⟨quote, -, -, hd⟩ | ⟨-, hd⟩ | ⟨hc, -, hd⟩ | ⟨frame, frames, -, -, hd⟩ | ⟨-, -, hd⟩
    all_goals
      rw [found] at hd
      cases hd
    exact ⟨':', hc, rfl, by decide, KeywordTable.contains_ofWords_of_not_mem (by decide), by decide, by decide⟩
  · cases found

/-- A scope that is closed has a marker, or the cursor is asked to stay. -/
private theorem marks_closed (hL : L ∈ languages) (found : L.dispatch c n = .ok (some .scopeEnd) n')
    (moves : n'.suppressed = false) : ∃ ch, L.Marks c n'.endMarker ch := by
  simp only [languages, List.mem_cons, List.not_mem_nil, or_false] at hL
  rcases hL with rfl | rfl | rfl
  · rcases Java.dispatch_cases c n with
      ⟨quote, -, -, hd⟩ | ⟨-, hd⟩ | ⟨-, hd⟩ | ⟨-, hd⟩ | ⟨hc, hd⟩ | ⟨-, -, hd⟩
    all_goals
      rw [found] at hd
      cases hd
    exact ⟨'\x7d', hc, rfl, by decide, KeywordTable.contains_ofWords_of_not_mem (by decide), by decide, by decide⟩
  · rcases Python.dispatch_cases c n with
      ⟨quote, -, -, hd⟩ | ⟨-, hd⟩ | ⟨-, -, hd⟩ | ⟨frame, frames, -, -, hd⟩ | ⟨-, -, hd⟩
    all_goals
      rw [found] at hd
      cases hd
    cases moves
  · cases found

end Bundled

namespace State

variable {L : Language} {o : Options} {s s' t : State} {heads : List State} {text : String}

/-! ### What a step passes -/

/-- The characters that the step that begins here passes. -/
inductive Moves (L : Language) (s : State) : List Char → Prop
  | construct {b : Boundary} {n : Notes} {chars : List Char}
      (found : L.dispatch s.cursor s.notes.fresh = .ok (some b) n) (hb : b.isConstruct = true) (ne_nil : chars ≠ []) :
      Moves L s chars
  | plain {n : Notes} {ch : Char} (found : L.dispatch s.cursor s.notes.fresh = .ok none n)
      (moves : n.suppressed = false) (here : s.cursor.current? = some ch) (one_line : ch ≠ '\n') : Moves L s [ch]
  | newline {n : Notes} (found : L.dispatch s.cursor s.notes.fresh = .ok none n) (moves : n.suppressed = false)
      (here : s.cursor.current? = some '\n') : Moves L s ('\n' :: crossed s.cursor.text s.cursor.index)
  | opened {n : Notes} {ch : Char} (found : L.dispatch s.cursor s.notes.fresh = .ok (some .scopeStart) n)
      (moves : n.suppressed = false) (marks : L.Marks s.cursor n.startMarker ch) : Moves L s [ch]
  | closed {n : Notes} {ch : Char} (found : L.dispatch s.cursor s.notes.fresh = .ok (some .scopeEnd) n)
      (moves : n.suppressed = false) (marks : L.Marks s.cursor n.endMarker ch) : Moves L s [ch]
  | dedented {n : Notes} (found : L.dispatch s.cursor s.notes.fresh = .ok (some .scopeEnd) n)
      (silent : n.endMarker = "") : Moves L s []

private theorem moves_plain (hw : L.isWordChar '\n' = false) (hs : s.Inside) {n : Notes}
    (found : L.dispatch s.cursor s.notes.fresh = .ok none n) (moves : n.suppressed = false)
    (hstep : s.step L o = .ok () s') : ∃ chars, s'.cursor.before = s.cursor.before ++ chars ∧ s.Moves L chars := by
  obtain ⟨ch, hch⟩ : ∃ ch, s.cursor.current? = some ch := ⟨_, Array.getElem?_eq_getElem hs⟩
  rw [step_of_none found, settle_of_moves (s := (s.plain L o).withNotes n) _ moves] at hstep
  injection hstep with _ hstep
  have hbefore : s'.cursor.before = s.cursor.text.toList.take ((s.plain L o).cursor.index + 1) := by
    rw [← hstep]
    exact Cursor.before_eq_take (reaches_plain s L o).text
  by_cases hn : ch = '\n'
  · rw [hn] at hch
    -- the newline is passed with all that it crosses
    have hprefix : '\n' :: crossed s.cursor.text s.cursor.index <+: s.cursor.text.toList.drop s.cursor.index := by
      rw [drop_eq_cons hch, List.cons_prefix_cons]
      exact ⟨rfl, List.takeWhile_prefix _⟩
    refine ⟨_, ?_, .newline found moves hch⟩
    rw [hbefore, plain_of_newline hw hch, index_newline, cursor_flush, Nat.add_assoc, ← List.length_cons,
      Cursor.take_add_of_isPrefix hprefix]
  · refine ⟨_, ?_, .plain found moves hch hn⟩
    rw [hbefore, cursor_plain_of_ne hch hn, Cursor.take_succ_eq hch]

private theorem index_lt_of_construct {b : Boundary} {n : Notes} (hb : b.isConstruct = true)
    (found : L.dispatch s.cursor s.notes.fresh = .ok (some b) n) (hstep : s.step L o = .ok () s') :
    s.cursor.index < s'.cursor.index := by
  obtain ⟨s₁, hs₁, rfl⟩ := boundary_of_step found hstep
  have hlt := (reaches_construct (boundary_construct hb ▸ hs₁)).2
  rw [cursor_flush] at hlt
  exact Nat.lt_of_lt_of_le hlt (index_le_settle ..)

private theorem moves_construct (hs : s.Inside) {b : Boundary} {n : Notes} (hb : b.isConstruct = true)
    (found : L.dispatch s.cursor s.notes.fresh = .ok (some b) n) (hstep : s.step L o = .ok () s') :
    ∃ chars, s'.cursor.before = s.cursor.before ++ chars ∧ s.Moves L chars := by
  have hlt := index_lt_of_construct hb found hstep
  have hs : s.cursor.index < s.cursor.text.size := hs
  refine ⟨(s.cursor.text.toList.drop s.cursor.index).take (s'.cursor.index - s.cursor.index), ?_,
    .construct found hb ?_⟩
  · rw [Cursor.before_eq_take (text_step hstep), Cursor.before, ← List.take_add,
      Nat.add_sub_cancel' (Nat.le_of_lt hlt)]
  · rw [← List.length_pos_iff, List.length_take, List.length_drop, Array.length_toList]
    omega

theorem Honest.moves_step (h : s.Honest L) (hL : L ∈ Bundled.languages) (hs : s.Inside)
    (hstep : s.step L o = .ok () s') : ∃ chars, s'.cursor.before = s.cursor.before ++ chars ∧ s.Moves L chars := by
  cases h with
  | plain found moves =>
    have hw : L.isWordChar '\n' = false := by rw [Bundled.isWordChar_eq hL, isWordChar_newline]
    exact moves_plain hw hs found moves hstep
  | string found moves opening closing | comment found moves opening closing =>
    exact moves_construct hs rfl found hstep
  | @opened n found moves opening =>
    obtain ⟨ch, hch⟩ := Bundled.marks_opened hL found
    obtain ⟨s₁, hs₁, rfl⟩ := boundary_of_step found hstep
    have hpass := passes_opened (s := flush { s with notes := n } L) (by rw [notes_flush, cursor_flush]; exact opening)
      (word_flush ..) (by rw [notes_flush]; exact moves) hs₁
    have hbefore := hpass.of_flush.before
    rw [notes_flush, hch.marker, String.toList_singleton, cursor_flush] at hbefore
    exact ⟨_, hbefore, .opened found moves hch⟩
  | @closed n found moves closing =>
    obtain ⟨ch, hch⟩ := Bundled.marks_closed hL found moves
    obtain ⟨s₁, hs₁, rfl⟩ := boundary_of_step found hstep
    have hpass := passes_closed (s := flush { s with notes := n } L) (by rw [notes_flush, cursor_flush]; exact closing)
      (word_flush ..) (by rw [notes_flush]; exact moves) hs₁
    have hbefore := hpass.of_flush.before
    rw [notes_flush, hch.marker, String.toList_singleton, cursor_flush] at hbefore
    exact ⟨_, hbefore, .closed found moves hch⟩
  | @dedented n found stays silent inner =>
    obtain ⟨s₁, hs₁, rfl⟩ := boundary_of_step found hstep
    have hpass := passes_dedented (s := flush { s with notes := n } L) (word_flush ..)
      (by rw [notes_flush]; exact stays) (by rw [notes_flush]; exact silent) (by rw [cursor_flush]; exact inner) hs₁
    have hbefore := hpass.of_flush.before
    rw [cursor_flush] at hbefore
    exact ⟨[], hbefore, .dedented found silent⟩

/-! ### What a run covers -/

/-- The span of the string or comment that the step that begins here reads. -/
def span? (L : Language) (o : Options) (s : State) : Option (Nat × Nat) :=
  if (s.found L).any Boundary.isConstruct then
    match s.step L o with
    | .ok () s' => some (s.cursor.index, s'.cursor.index)
    | .error _ _ => none
  else none

/-- The spans of the strings and comments of a run. -/
def spans (L : Language) (o : Options) (heads : List State) : List (Nat × Nat) := heads.filterMap (span? L o)

theorem isSome_span? (hstep : s.step L o = .ok () s') :
    (s.span? L o).isSome = (s.found L).any Boundary.isConstruct := by
  rw [span?, hstep]
  cases (s.found L).any Boundary.isConstruct <;> rfl

/-- A span is of a string or comment that was found, and goes where its step goes. -/
private theorem construct_of_span {p : Nat × Nat} (h : s.span? L o = some p) :
    ∃ b n s', L.dispatch s.cursor s.notes.fresh = .ok (some b) n ∧ b.isConstruct = true ∧
      s.step L o = .ok () s' ∧ p = (s.cursor.index, s'.cursor.index) := by
  unfold span? at h
  cases hfound : s.found L with
  | none =>
    rw [hfound] at h
    cases h
  | some b =>
    obtain ⟨n, found⟩ := dispatch_of_found hfound
    rw [hfound] at h
    split at h
    · rename_i hb
      split at h
      · rename_i s' hstep
        exact ⟨b, n, s', found, hb, hstep, (Option.some.inj h).symm⟩
      · cases h
    · cases h

private theorem spans_concat (L : Language) (o : Options) (heads : List State) (s : State) :
    spans L o (heads ++ [s]) = spans L o heads ++ (s.span? L o).toList := by
  rw [spans, List.filterMap_append, spans]
  cases h : s.span? L o <;> simp [h]

private theorem Runs.spans_le (h : Runs L o s heads t) : ∀ p ∈ spans L o heads, p.2 ≤ t.cursor.index := by
  refine h.induction_snoc (P := fun heads u => ∀ p ∈ spans L o heads, p.2 ≤ u.cursor.index) (by simp [spans]) ?_
  intro heads u u' _ ih _ hstep p hp
  rw [spans_concat, List.mem_append, Option.mem_toList] at hp
  rcases hp with hp | hp
  · exact Nat.le_trans (ih p hp) (index_le_step hstep)
  · obtain ⟨b, n, u₁, -, -, hstep', rfl⟩ := construct_of_span hp
    rw [hstep] at hstep'
    cases hstep'
    exact Nat.le_refl _

private theorem length_before (hs : s.Inside) : s.cursor.before.length = s.cursor.index := by
  have hs : s.cursor.index < s.cursor.text.size := hs
  rw [Cursor.before, List.length_take, Array.length_toList]
  omega

/-- A step that reads a string or comment covers what it passes, and any other step leaves it outside. -/
theorem Runs.outside_step (h : Runs L o s heads t) (ht : t.Inside) (hstep : t.step L o = .ok () s') {chars : List Char}
    (hbefore : s'.cursor.before = t.cursor.before ++ chars) :
    outside (spans L o (heads ++ [t])) s'.cursor.before = outside (spans L o heads) t.cursor.before ++
      chars.map fun c => if (t.span? L o).isSome then none else some c := by
  have hlen := length_before ht
  have hnew : ∀ p ∈ (t.span? L o).toList, p = (t.cursor.index, s'.cursor.index) := by
    intro p hp
    obtain ⟨b, n, u, -, -, hstep', rfl⟩ := construct_of_span (Option.mem_toList.1 hp)
    rw [hstep] at hstep'
    cases hstep'
    rfl
  rw [spans_concat, hbefore, outside_append (by rw [hlen]; exact h.spans_le)
    (by intro p hp; rw [hnew p hp, hlen])]
  have hcovers : ∀ i < chars.length,
      covered (t.span? L o).toList (i + t.cursor.before.length) = (t.span? L o).isSome := by
    intro i hi
    cases hspan : t.span? L o with
    | none => rfl
    | some p =>
      have hlt : i + t.cursor.index < s'.cursor.index := by
        have hle : s'.cursor.before.length ≤ s'.cursor.index := List.length_take_le ..
        rw [hbefore, List.length_append, hlen] at hle
        omega
      obtain rfl := hnew p (by rw [hspan]; exact List.mem_singleton_self p)
      simp [covered, hlen, hlt]
  congr 1
  refine List.ext_getElem (by simp) fun i hi _ => ?_
  rw [List.getElem_mapIdx, List.getElem_map, hcovers i (by simpa using hi)]

end State

/-! ### Where strings and comments open -/

/-- Where no string or comment is found, the predicates that look for one have declined. -/
private theorem Language.construct_declined {L : Language} {c : Cursor} {n n' : Notes} {r : Option Boundary}
    (found : L.dispatch c n = .ok r n') (hr : r.any Boundary.isConstruct = false) :
    ∃ m m', L.predicate (.opens .string) c n.clearMarkers = .ok false m ∧
      L.predicate (.opens .comment) c m.clearMarkers = .ok false m' := by
  rw [dispatch, Boundary.order, firstBoundary] at found
  split at found
  · cases found
    cases hr
  · rename_i m hstring
    rw [firstBoundary] at found
    split at found
    · cases found
      cases hr
    · rename_i m' hcomment
      exact ⟨m, m', hstring, hcomment⟩
    · cases found
  · cases found

private theorem Java.at?_eq_none {c : Cursor} {n n' : Notes} {r : Option Boundary}
    (found : language.dispatch c n = .ok r n') (hr : r.any Boundary.isConstruct = false) (b : Boundary) :
    Form.at? (forms b) c.text.toList c.index = none := by
  obtain ⟨m, m', hstring, hcomment⟩ := Language.construct_declined found hr
  have hstring : stringStart c n.clearMarkers = .ok false m := hstring
  have hcomment : commentStart c m.clearMarkers = .ok false m' := hcomment
  have hfirst : ∀ ch : Char, c.current? ≠ some ch → c.startsWith (String.singleton ch) = false := by
    intro ch hch
    rw [Cursor.startsWith_singleton]
    exact decide_eq_false hch
  rw [Form.at?_eq]
  cases b with
  | stringStart =>
    unfold stringStart at hstring
    split at hstring
    · cases hstring
    · cases hstring
    · rename_i hdouble hsingle
      have hdouble : c.startsWith "\"" = false := hfirst '"' hdouble
      have hsingle : c.startsWith "'" = false := hfirst '\'' hsingle
      simp [forms, Form.opening, hdouble, hsingle]
  | commentStart =>
    unfold commentStart at hcomment
    split at hcomment
    · cases hcomment
    · cases hcomment
    · rename_i hline hblock
      have hline : c.startsWith "//" = false := by
        simpa [Cursor.startsWith, startsAt, Cursor.current?, Cursor.peek?] using hline
      have hblock : c.startsWith "/*" = false := by
        simpa [Cursor.startsWith, startsAt, Cursor.current?, Cursor.peek?] using hblock
      simp [forms, Form.opening, hline, hblock]
  | scopeStart | scopeEnd => rfl

private theorem Python.at?_eq_none {c : Cursor} {n n' : Notes} {r : Option Boundary}
    (found : language.dispatch c n = .ok r n')
    (hr : r.any Boundary.isConstruct = false) (moves : n'.suppressed = false) (b : Boundary) :
    Form.at? (forms b) c.text.toList c.index = none := by
  obtain ⟨m, m', hstring, hcomment⟩ := Language.construct_declined found hr
  have hstring : stringStart c n.clearMarkers = .ok false m := hstring
  have hcomment : commentStart c m.clearMarkers = .ok false m' := hcomment
  rw [Form.at?_eq]
  cases b with
  | stringStart =>
    -- a block that ends here keeps a quote from being found, but then the cursor stays
    have hquote : openingQuote? c = none := by
      rcases dispatch_cases c n with
        ⟨quote, -, -, hd⟩ | ⟨-, hd⟩ | ⟨hcolon, -, -⟩ | ⟨frame, frames, -, -, hd⟩ | ⟨-, hblock, -⟩
      · rw [found] at hd
        cases hd
        cases hr
      · rw [found] at hd
        cases hd
        cases hr
      · simp [openingQuote?, hcolon]
      · rw [found] at hd
        cases hd
        cases moves
      · rw [stringStart, if_neg (by simpa using hblock)] at hstring
        split at hstring
        · cases hstring
        · assumption
    rw [openingQuote?_eq_find] at hquote
    rw [forms, List.find?_map, Option.map_eq_none_iff]
    exact hquote
  | commentStart =>
    have hhash : c.startsWith "#" = false := by
      rw [commentStart] at hcomment
      split at hcomment
      · cases hcomment
      · rename_i hne
        exact (Cursor.startsWith_singleton c '#').trans (decide_eq_false hne)
    simp [forms, Form.opening, hhash]
  | scopeStart | scopeEnd => rfl

namespace Bundled

variable {L : Language} {forms : Boundary → List Form}

/-- Where no string or comment is found and the cursor moves on, none opens. -/
private theorem at?_eq_none (hL : (L, forms) ∈ grammars) {c : Cursor} {n n' : Notes} {r : Option Boundary}
    (found : L.dispatch c n = .ok r n') (hr : r.any Boundary.isConstruct = false) (moves : n'.suppressed = false)
    (b : Boundary) : Form.at? (forms b) c.text.toList c.index = none := by
  simp only [grammars, List.mem_cons, List.not_mem_nil, or_false, Prod.mk.injEq] at hL
  rcases hL with ⟨rfl, rfl⟩ | ⟨rfl, rfl⟩
  · exact Java.at?_eq_none found hr b
  · exact Python.at?_eq_none found hr moves b

/-- No string or comment opens at a blank or a newline. -/
private theorem at?_of_crossed (hL : (L, forms) ∈ grammars) {cs : List Char} {i : Nat} {ch : Char}
    (hi : cs[i]? = some ch)
    (hch : ch = '\n' ∨ isBlank ch = true) (b : Boundary) : Form.at? (forms b) cs i = none := by
  have hopening : ∀ f ∈ forms b, ∃ first rest, f.opening.toList = first :: rest ∧ first ≠ '\n' ∧
      isBlank first = false := by
    simp only [grammars, List.mem_cons, List.not_mem_nil, or_false, Prod.mk.injEq] at hL
    rcases hL with ⟨rfl, rfl⟩ | ⟨rfl, rfl⟩
    all_goals
      cases b <;> simp [Java.forms, Python.forms, Python.quotes, Form.opening, isBlank]
  rw [Form.at?, List.find?_eq_none]
  intro f hf hopens
  obtain ⟨first, rest, hfirst, hn, hb⟩ := hopening f hf
  obtain ⟨hlt, hget⟩ := List.getElem?_eq_some_iff.1 hi
  rw [hfirst, List.drop_eq_getElem_cons hlt, hget, List.isPrefixOf_iff_prefix, List.cons_prefix_cons] at hopens
  rcases hch with rfl | hch
  · exact hn hopens.1
  · rw [hopens.1, hch] at hb
    cases hb

private theorem exists_grammar (hL : L ∈ languages) {c : Cursor} {n n' : Notes} {b : Boundary}
    (found : L.dispatch c n = .ok (some b) n') : ∃ forms, (L, forms) ∈ grammars := by
  simp only [languages, List.mem_cons, List.not_mem_nil, or_false] at hL
  rcases hL with rfl | rfl | rfl
  · exact ⟨Java.forms, by simp [grammars]⟩
  · exact ⟨Python.forms, by simp [grammars]⟩
  · cases found

end Bundled

namespace State

variable {L : Language} {forms : Boundary → List Form} {o : Options} {s s' t : State} {heads : List State}
  {text : String}

/-- Where a step that reads no string or comment passes a character, none opens. -/
private theorem Moves.at?_eq_none {chars : List Char} (h : s.Moves L chars) (hL : (L, forms) ∈ Bundled.grammars)
    (hc : (s.found L).any Boundary.isConstruct = false) {i : Nat} {ch : Char} (hi : chars[i]? = some ch)
    (here : s.cursor.text.toList[s.cursor.index + i]? = some ch) (b : Boundary) :
    Form.at? (forms b) s.cursor.text.toList (s.cursor.index + i) = none := by
  have single : ∀ {x : Char}, [x][i]? = some ch → i = 0 := by
    intro x hx
    have := (List.getElem?_eq_some_iff.1 hx).1
    simpa using this
  cases h with
  | construct found hb ne_nil =>
    rw [found_of_dispatch found, Option.any_some, hb] at hc
    cases hc
  | plain found moves _ one_line =>
    obtain rfl := single hi
    exact Bundled.at?_eq_none hL found rfl moves b
  | newline found moves _ =>
    refine Bundled.at?_of_crossed hL here ?_ b
    rcases List.mem_cons.1 (List.mem_of_getElem? hi) with rfl | hmem
    · exact Or.inl rfl
    · exact mem_crossed hmem
  | opened found moves marks =>
    obtain rfl := single hi
    exact Bundled.at?_eq_none hL found rfl moves b
  | closed found moves marks =>
    obtain rfl := single hi
    exact Bundled.at?_eq_none hL found rfl moves b
  | dedented found silent => cases hi

/-- Outside the spans of a run no string or comment opens, as far as the run goes. -/
theorem Runs.unopened (h : Runs L o (start text) heads t) (hL : (L, forms) ∈ Bundled.grammars) :
    ∀ i < t.cursor.index, i < text.length → covered (spans L o heads) i = false →
      ∀ b, Form.at? (forms b) text.toList i = none := by
  have hmem := Bundled.mem_languages_of_grammars hL
  refine h.induction_snoc (P := fun heads u => ∀ i < u.cursor.index, i < text.length →
    covered (spans L o heads) i = false → ∀ b, Form.at? (forms b) text.toList i = none) ?_ ?_
  · intro i hi
    cases hi
  · intro heads u u' hr ih hs hstep i hi hlen hcovers b
    rw [spans_concat, covered_append, Bool.or_eq_false_iff] at hcovers
    rcases Nat.lt_or_ge i u.cursor.index with hlt | hge
    · exact ih i hlt hlen hcovers.1 b
    have htext : u.cursor.text.toList = text.toList := congrArg Array.toList hr.text_eq.2
    have hc : (u.found L).any Boundary.isConstruct = false := by
      rw [← isSome_span? hstep]
      cases hspan : u.span? L o with
      | none => rfl
      | some p =>
        obtain ⟨_, _, u₁, -, -, hstep', rfl⟩ := construct_of_span hspan
        rw [hstep] at hstep'
        cases hstep'
        simp [hspan, covered, hge, hi] at hcovers
    obtain ⟨chars, hbefore, hmoves⟩ := (hr.honest hmem).2.moves_step hmem hs hstep
    obtain ⟨ch, hch⟩ : ∃ ch, text.toList[i]? = some ch :=
      ⟨_, List.getElem?_eq_getElem (by rw [String.length_toList]; exact hlen)⟩
    -- the character at `i` is one of those passed
    have hpassed : chars[i - u.cursor.index]? = some ch := by
      have hget : u'.cursor.before[i]? = some ch := by
        rw [Cursor.before_eq_take (text_step hstep), List.getElem?_take_of_lt hi, htext, hch]
      rwa [hbefore, List.getElem?_append_right (by rw [length_before hs]; exact hge), length_before hs] at hget
    have hnone := hmoves.at?_eq_none hL hc hpassed (by rw [Nat.add_sub_cancel' hge, htext, hch]) b
    rwa [Nat.add_sub_cancel' hge, htext] at hnone

/-- A span begins where the grammar has a string or comment, and goes as far as its form says. -/
theorem Runs.spans_open (h : Runs L o (start text) heads t) (hL : L ∈ Bundled.languages) :
    ∀ p ∈ spans L o heads, ∃ forms b f, (L, forms) ∈ Bundled.grammars ∧
      Form.at? (forms b) text.toList p.1 = some f ∧
      (text.length < UInt32.size - 1 → ∃ chars, f.Extent text.toList p.1 p.2 chars) := by
  intro p hp
  obtain ⟨u, hu, hspan⟩ := List.mem_filterMap.1 hp
  obtain ⟨b, n, u', found, hb, hstep, rfl⟩ := construct_of_span hspan
  obtain ⟨before, after, -, hr, -⟩ := h.of_mem hu
  obtain ⟨forms, hforms⟩ := Bundled.exists_grammar hL found
  obtain ⟨f, hat, hf⟩ := Bundled.opens hforms hb found rfl
  have htext : u.cursor.text.toList = text.toList := congrArg Array.toList hr.text_eq.2
  rw [htext] at hat
  refine ⟨forms, b, f, hforms, hat, fun hlen => ?_⟩
  obtain ⟨hE, -, -⟩ := hr.exact_of_start (Or.inl hL) hlen
  obtain ⟨chars, -, hextent⟩ := step_extent hb found hf (Cursor.countable_of_toList htext hlen) hE.stamps hstep
  rw [htext] at hextent
  exact ⟨chars, hextent⟩

end State

end LexTree
