import LexTree.Language.Bundled
import LexTree.Proofs.Emission
import LexTree.Proofs.Position

/-!
# What the bundled languages find

For each bundled language, the boundary found at a place and the notes left there (`dispatch_cases`).  From these it is
read off that the languages are honest: a delimiter they report stands under the cursor, on one line, a construct ends
at its closing delimiter or at the end of its line, and the cursor is asked to stay only to close a scope without a
delimiter.
-/

namespace LexTree

/-! ### Delimiters under the cursor -/

theorem startsAt_iff (text : Array Char) (i : Nat) (cs : List Char) :
    startsAt text i cs = true ↔ cs <+: text.toList.drop i := by
  induction cs generalizing i with
  | nil => simp [startsAt]
  | cons c cs ih =>
    rw [startsAt, Bool.and_eq_true, ih, decide_eq_true_eq]
    cases hc : text[i]? with
    | none => simp [List.drop_eq_nil_of_le (Array.getElem?_eq_none_iff.1 hc)]
    | some d => simp [drop_eq_cons hc, List.cons_prefix_cons, eq_comm]

/-- A delimiter stands under the cursor, on one line. -/
structure Cursor.Shows (c : Cursor) (delimiter : String) : Prop where
  ne_empty : delimiter ≠ ""
  one_line : '\n' ∉ delimiter.toList
  here : delimiter.toList <+: c.text.toList.drop c.index

theorem Cursor.shows_singleton {c : Cursor} {ch : Char} (h : c.current? = some ch) (hn : ch ≠ '\n') :
    c.Shows (String.singleton ch) := by
  refine ⟨by simp, by simpa using Ne.symm hn, ?_⟩
  rw [String.toList_singleton, drop_eq_cons h]
  exact List.prefix_append [ch] _

theorem Cursor.Shows.current?_eq {c : Cursor} {delimiter : String} (h : c.Shows delimiter) :
    c.current? = delimiter.toList.head? := by
  obtain ⟨rest, hrest⟩ := h.here
  have hget : c.current? = (c.text.toList.drop c.index)[0]? := by
    rw [Cursor.current?_eq, List.getElem?_drop, Nat.add_zero]
  cases hd : delimiter.toList with
  | nil => exact absurd (String.toList_eq_nil_iff.1 hd) h.ne_empty
  | cons x xs =>
    rw [hget, ← hrest, hd]
    rfl

theorem Cursor.Shows.current?_ne {c : Cursor} {delimiter : String} (h : c.Shows delimiter) :
    c.current? ≠ some '\n' := by
  intro hn
  rw [h.current?_eq] at hn
  exact h.one_line (List.mem_of_head? hn)

theorem Cursor.shows_of_startsWith {c : Cursor} {delimiter : String} (h : c.startsWith delimiter = true)
    (hne : delimiter ≠ "") (hl : '\n' ∉ delimiter.toList) : c.Shows delimiter :=
  ⟨hne, hl, (startsAt_iff ..).1 h⟩

theorem Cursor.startsWith_singleton (c : Cursor) (ch : Char) :
    c.startsWith (String.singleton ch) = decide (c.current? = some ch) := by
  rw [Bool.eq_iff_iff, decide_eq_true_eq]
  simp [startsWith, startsAt, current?]

private theorem prefix_of_current {c : Cursor} {a b : Char} (ha : c.current? = some a) (hb : c.peek? 1 = some b) :
    [a, b] <+: c.text.toList.drop c.index := by
  rw [drop_eq_cons ha, drop_eq_cons hb]
  exact List.prefix_append [a, b] _

/-! ### Finding a boundary -/

namespace Language

variable {L : Language} {c : Cursor} {n n' : Notes} {b : Boundary} {rest : List Boundary}

theorem firstBoundary_of_true (h : L.predicate b.edge c n.clearMarkers = .ok true n') :
    L.firstBoundary c (b :: rest) n = .ok (some b) n' := by
  rw [firstBoundary, h]

theorem firstBoundary_of_false (h : L.predicate b.edge c n.clearMarkers = .ok false n') :
    L.firstBoundary c (b :: rest) n = L.firstBoundary c rest n' := by
  rw [firstBoundary, h]

end Language

/-! ### Honest languages -/

/-- A construct that opened at `c` and left the notes `n` ends at a closing delimiter, or at the end of its line. -/
inductive Closing (ends : Predicate) (c : Cursor) (n : Notes) : Prop
  | delimiter (test : Cursor → Bool) (asked : ∀ d, ends d n = .ok (test d) n)
      (shown : ∀ d, test d = true → d.Shows n.endMarker)
      (visible : (n.endMarker.toList.any fun ch => !isWhiteSpace ch) = true)
  | lineEnd (marker : n.endMarker = "\n") (asked : ∀ d, ends d n = .ok (d.line ≠ c.line) n)

/-- What is found at the head of a step is really there. -/
inductive State.Honest (L : Language) (s : State) : Prop
  | plain {n : Notes} (found : L.dispatch s.cursor s.notes.fresh = .ok none n) (moves : n.suppressed = false)
  | string {n : Notes} (found : L.dispatch s.cursor s.notes.fresh = .ok (some .stringStart) n)
      (moves : n.suppressed = false) (opening : s.cursor.Shows n.startMarker)
      (closing : Closing (L.predicate (.closes .string)) s.cursor n)
  | comment {n : Notes} (found : L.dispatch s.cursor s.notes.fresh = .ok (some .commentStart) n)
      (moves : n.suppressed = false) (opening : s.cursor.Shows n.startMarker)
      (closing : Closing (L.predicate (.closes .comment)) s.cursor n)
  | opened {n : Notes} (found : L.dispatch s.cursor s.notes.fresh = .ok (some .scopeStart) n)
      (moves : n.suppressed = false) (opening : s.cursor.Shows n.startMarker)
  | closed {n : Notes} (found : L.dispatch s.cursor s.notes.fresh = .ok (some .scopeEnd) n)
      (moves : n.suppressed = false) (closing : s.cursor.Shows n.endMarker)
  | dedented {n : Notes} (found : L.dispatch s.cursor s.notes.fresh = .ok (some .scopeEnd) n)
      (stays : n.suppressed = true) (silent : n.endMarker = "") (inner : s.cursor.depth ≠ 0)

/-! ### Dull -/

theorem Dull.dispatch_eq (c : Cursor) (n : Notes) : Dull.language.dispatch c n = .ok none n.clearMarkers := rfl

theorem Dull.honest (s : State) : s.Honest Dull.language := .plain (Dull.dispatch_eq ..) rfl

/-! ### Java -/

namespace Java

/-- Java finds a quote, a comment opener or a brace, each with its delimiters, or nothing. -/
theorem dispatch_cases (c : Cursor) (n : Notes) :
    (∃ quote, (quote = '"' ∨ quote = '\'') ∧ c.current? = some quote ∧
      language.dispatch c n =
        .ok (some .stringStart) (n.clearMarkers.mark (String.singleton quote) (String.singleton quote))) ∨
    (c.startsWith "//" = true ∧ language.dispatch c n = .ok (some .commentStart)
      { n.clearMarkers.mark "//" "\n" with scratch := n.scratch.markLine .comment c.line }) ∨
    (c.startsWith "/*" = true ∧
      language.dispatch c n = .ok (some .commentStart) (n.clearMarkers.mark "/*" "*/")) ∨
    (c.current? = some '\x7b' ∧
      language.dispatch c n = .ok (some .scopeStart) { n.clearMarkers with startMarker := "\x7b" }) ∨
    (c.current? = some '\x7d' ∧
      language.dispatch c n = .ok (some .scopeEnd) { n.clearMarkers with endMarker := "\x7d" }) ∨
    (c.current? ≠ some '\x7b' ∧ c.current? ≠ some '\x7d' ∧ language.dispatch c n = .ok none n.clearMarkers) := by
  -- the predicates are asked in the order of the boundaries, each after those before it have declined
  by_cases hdouble : c.current? = some '"'
  · refine Or.inl ⟨'"', Or.inl rfl, hdouble, Language.firstBoundary_of_true ?_⟩
    show stringStart c n.clearMarkers = _
    unfold stringStart
    rw [hdouble]
    rfl
  by_cases hsingle : c.current? = some '\''
  · refine Or.inl ⟨'\'', Or.inr rfl, hsingle, Language.firstBoundary_of_true ?_⟩
    show stringStart c n.clearMarkers = _
    unfold stringStart
    rw [hsingle]
    rfl
  have hstring : language.predicate Boundary.stringStart.edge c n.clearMarkers = .ok false n.clearMarkers := by
    show stringStart c n.clearMarkers = _
    unfold stringStart
    split
    · contradiction
    · contradiction
    · rfl
  rw [Language.dispatch, Boundary.order, Language.firstBoundary_of_false hstring]
  by_cases hline : c.current? = some '/' ∧ c.peek? 1 = some '/'
  · refine Or.inr (Or.inl ⟨?_, Language.firstBoundary_of_true ?_⟩)
    · exact (startsAt_iff ..).2 (prefix_of_current hline.1 hline.2)
    · show commentStart c n.clearMarkers = _
      unfold commentStart
      rw [hline.1, hline.2]
      rfl
  by_cases hblock : c.current? = some '/' ∧ c.peek? 1 = some '*'
  · refine Or.inr (Or.inr (Or.inl ⟨?_, Language.firstBoundary_of_true ?_⟩))
    · exact (startsAt_iff ..).2 (prefix_of_current hblock.1 hblock.2)
    · show commentStart c n.clearMarkers = _
      unfold commentStart
      rw [hblock.1, hblock.2]
      rfl
  have hcomment : language.predicate Boundary.commentStart.edge c n.clearMarkers.clearMarkers =
      .ok false n.clearMarkers := by
    show commentStart c n.clearMarkers = _
    unfold commentStart
    split
    · rename_i h₁ h₂
      exact absurd ⟨h₁, h₂⟩ hline
    · rename_i h₁ h₂
      exact absurd ⟨h₁, h₂⟩ hblock
    · rfl
  rw [Language.firstBoundary_of_false hcomment]
  by_cases hopen : c.current? = some '\x7b'
  · refine Or.inr (Or.inr (Or.inr (Or.inl ⟨hopen, Language.firstBoundary_of_true ?_⟩)))
    show scopeStart c n.clearMarkers = _
    rw [scopeStart, if_pos hopen]
  have hscope : language.predicate Boundary.scopeStart.edge c n.clearMarkers.clearMarkers =
      .ok false n.clearMarkers := by
    show scopeStart c n.clearMarkers = _
    rw [scopeStart, if_neg hopen]
  rw [Language.firstBoundary_of_false hscope]
  by_cases hclose : c.current? = some '\x7d'
  · refine Or.inr (Or.inr (Or.inr (Or.inr (Or.inl ⟨hclose, Language.firstBoundary_of_true ?_⟩))))
    show scopeEnd c n.clearMarkers = _
    rw [scopeEnd, if_pos hclose]
  have hend : language.predicate Boundary.scopeEnd.edge c n.clearMarkers.clearMarkers = .ok false n.clearMarkers := by
    show scopeEnd c n.clearMarkers = _
    rw [scopeEnd, if_neg hclose]
  rw [Language.firstBoundary_of_false hend]
  exact Or.inr (Or.inr (Or.inr (Or.inr (Or.inr ⟨hopen, hclose, rfl⟩))))

theorem honest (s : State) : s.Honest language := by
  rcases dispatch_cases s.cursor s.notes.fresh with
    ⟨quote, hq, hc, h⟩ | ⟨hc, h⟩ | ⟨hc, h⟩ | ⟨hc, h⟩ | ⟨hc, h⟩ | ⟨-, -, h⟩
  · have hn : quote ≠ '\n' := by rcases hq with rfl | rfl <;> decide
    refine .string h rfl (Cursor.shows_singleton hc hn) (.delimiter _ (fun d => rfl) ?_ ?_)
    · intro d hd
      refine Cursor.shows_singleton ?_ hn
      simpa [Notes.mark] using (Bool.and_eq_true_iff.1 hd).1
    · show ((String.singleton quote).toList.any fun ch => !isWhiteSpace ch) = true
      rcases hq with rfl | rfl <;> decide +kernel
  · have hopen : s.cursor.Shows "//" := Cursor.shows_of_startsWith hc (by decide) (by decide)
    exact .comment h rfl hopen (.lineEnd rfl fun d => rfl)
  · have hopen : s.cursor.Shows "/*" := Cursor.shows_of_startsWith hc (by decide) (by decide)
    refine .comment h rfl hopen (.delimiter (fun d => d.startsWith "*/") (fun d => rfl) ?_ ?_)
    · intro d hd
      have hclose : d.Shows "*/" := Cursor.shows_of_startsWith hd (by decide) (by decide)
      exact hclose
    · show (("*/" : String).toList.any fun ch => !isWhiteSpace ch) = true
      decide +kernel
  · exact .opened h rfl (Cursor.shows_singleton hc (by decide))
  · exact .closed h rfl (Cursor.shows_singleton hc (by decide))
  · exact .plain h rfl

end Java

/-! ### Python -/

namespace Python

/-- The quotes, three of a kind before one. -/
def quotes : List String := ["\"\"\"", "\"", "'''", "'"]

/-- Of the quotes that stand under the cursor, the one listed first opens. -/
theorem openingQuote?_eq_find (c : Cursor) : openingQuote? c = quotes.find? c.startsWith := by
  have hfirst : ∀ q : Char, c.startsWith (String.singleton q) = true ↔ c.current? = some q := by
    intro q
    rw [Cursor.startsWith_singleton, decide_eq_true_eq]
  have htriple : ∀ q : Char, c.current? ≠ some q → startsAt c.text c.index [q, q, q] = false := by
    intro q hq
    have hq' : c.text[c.index]? ≠ some q := hq
    simp [startsAt, hq']
  have hd : c.startsWith "\"" = true ↔ c.current? = some '"' := hfirst '"'
  have hs : c.startsWith "'" = true ↔ c.current? = some '\'' := hfirst '\''
  unfold openingQuote? quotes
  split
  · rename_i hc
    cases h : c.startsWith "\"\"\"" <;> simp [h, hd.2 hc]
  · rename_i hc
    have hne : c.current? ≠ some '"' := by simp [hc]
    have h₃ : c.startsWith "\"\"\"" = false := htriple '"' hne
    have h₁ : c.startsWith "\"" = false := Bool.eq_false_iff.2 fun h => hne (hd.1 h)
    cases h : c.startsWith "'''" <;> simp [h, h₃, h₁, hs.2 hc]
  · rename_i hne hne'
    have h₁ : ∀ q ∈ ["\"\"\"", "\"", "'''", "'"], c.startsWith q = false := by
      simp only [List.forall_mem_cons]
      refine ⟨htriple '"' hne, ?_, htriple '\'' hne', ?_, by simp⟩
      · exact Bool.eq_false_iff.2 fun h => hne (hd.1 h)
      · exact Bool.eq_false_iff.2 fun h => hne' (hs.1 h)
    rw [eq_comm, List.find?_eq_none]
    intro q hq
    simp [h₁ q hq]

@[simp] theorem closesBlock_clearMarkers (c : Cursor) (n : Notes) :
    closesBlock c n.clearMarkers = closesBlock c n := rfl

/-- Python finds a quote, a hash or a colon, each with its delimiters, gives up the frame of a block that ends here, or
finds nothing. -/
theorem dispatch_cases (c : Cursor) (n : Notes) :
    (∃ quote, openingQuote? c = some quote ∧ closesBlock c n = false ∧
      language.dispatch c n = .ok (some .stringStart) (n.clearMarkers.mark quote quote)) ∨
    (c.current? = some '#' ∧ language.dispatch c n = .ok (some .commentStart)
      { n.clearMarkers.mark "#" "\n" with scratch := n.scratch.markLine .comment c.line }) ∨
    (c.current? = some ':' ∧ endsLine c = true ∧ language.dispatch c n = .ok (some .scopeStart)
      { n.clearMarkers with startMarker := ":", scratch := n.scratch.pushFrame .scope c.frame }) ∨
    (∃ frame frames, n.scratch.scope.frames = frame :: frames ∧ closesBlock c n = true ∧
      language.dispatch c n = .ok (some .scopeEnd)
        { n.clearMarkers with
          scratch := { n.scratch with scope := { n.scratch.scope with frames } }, suppressed := true }) ∨
    (c.current? ≠ some '#' ∧ closesBlock c n = false ∧ language.dispatch c n = .ok none n.clearMarkers) := by
  -- a block that ends here keeps quotes from being found, but not hashes and colons
  by_cases hquote : ∃ quote, closesBlock c n = false ∧ openingQuote? c = some quote
  · obtain ⟨quote, hblock, hquote⟩ := hquote
    refine Or.inl ⟨quote, hquote, hblock, Language.firstBoundary_of_true ?_⟩
    show stringStart c n.clearMarkers = _
    rw [stringStart, if_neg (by simpa using hblock), hquote]
  have hstring : language.predicate Boundary.stringStart.edge c n.clearMarkers = .ok false n.clearMarkers := by
    show stringStart c n.clearMarkers = _
    unfold stringStart
    split
    · rfl
    · rename_i hblock
      split
      · rename_i quote hq
        exact absurd ⟨quote, by simpa using hblock, hq⟩ hquote
      · rfl
  rw [Language.dispatch, Boundary.order, Language.firstBoundary_of_false hstring]
  by_cases hhash : c.current? = some '#'
  · refine Or.inr (Or.inl ⟨hhash, Language.firstBoundary_of_true ?_⟩)
    show commentStart c n.clearMarkers = _
    rw [commentStart, if_pos hhash]
    rfl
  have hcomment : language.predicate Boundary.commentStart.edge c n.clearMarkers.clearMarkers =
      .ok false n.clearMarkers := by
    show commentStart c n.clearMarkers = _
    rw [commentStart, if_neg hhash]
  rw [Language.firstBoundary_of_false hcomment]
  by_cases hcolon : c.current? = some ':' ∧ endsLine c = true
  · refine Or.inr (Or.inr (Or.inl ⟨hcolon.1, hcolon.2, Language.firstBoundary_of_true ?_⟩))
    show scopeStart c n.clearMarkers = _
    rw [scopeStart, if_pos (by simpa using hcolon)]
    rfl
  have hscope : language.predicate Boundary.scopeStart.edge c n.clearMarkers.clearMarkers =
      .ok false n.clearMarkers := by
    show scopeStart c n.clearMarkers = _
    rw [scopeStart, if_neg (by simpa using hcolon)]
  rw [Language.firstBoundary_of_false hscope]
  by_cases hblock : closesBlock c n = true
  · -- a block that ends here has a frame to give up
    obtain ⟨frame, frames, hf⟩ : ∃ frame frames, n.scratch.scope.frames = frame :: frames := by
      cases hf : n.scratch.scope.frames with
      | nil => simp [closesBlock, Scratch.topFrame?, Scratch.slot, hf] at hblock
      | cons frame frames => exact ⟨frame, frames, rfl⟩
    refine Or.inr (Or.inr (Or.inr (Or.inl ⟨frame, frames, hf, hblock, Language.firstBoundary_of_true ?_⟩)))
    show scopeEnd c n.clearMarkers = _
    have hpop : n.clearMarkers.scratch.popFrame .scope =
        .ok (frame, { n.scratch with scope := { n.scratch.scope with frames } }) := by
      unfold Scratch.popFrame
      rw [show (n.clearMarkers.scratch.slot .scope).frames = frame :: frames from hf]
      rfl
    rw [scopeEnd, if_pos (by simpa using hblock), hpop]
  have hend : language.predicate Boundary.scopeEnd.edge c n.clearMarkers.clearMarkers = .ok false n.clearMarkers := by
    show scopeEnd c n.clearMarkers = _
    rw [scopeEnd, if_neg (by simpa using hblock)]
  rw [Language.firstBoundary_of_false hend]
  exact Or.inr (Or.inr (Or.inr (Or.inr ⟨hhash, by simpa using hblock, rfl⟩)))

/-- What Python finds is really there, as long as it keeps one frame for each open scope. -/
theorem honest {s : State} (hf : s.notes.scratch.scope.frames.length = s.cursor.depth) : s.Honest language := by
  rcases dispatch_cases s.cursor s.notes.fresh with
    ⟨quote, hquote, -, h⟩ | ⟨hc, h⟩ | ⟨hc, -, h⟩ | ⟨frame, frames, hframes, -, h⟩ | ⟨-, -, h⟩
  · rw [openingQuote?_eq_find] at hquote
    have hq := List.mem_of_find?_eq_some hquote
    have hc := List.find?_some hquote
    have hne : quote ≠ "" := by
      rintro rfl
      exact absurd hq (by decide)
    have hline : ∀ quote ∈ quotes, '\n' ∉ quote.toList := by decide
    have hvisible : ∀ quote ∈ quotes, (quote.toList.any fun ch => !isWhiteSpace ch) = true := by decide +kernel
    refine .string h rfl (Cursor.shows_of_startsWith hc hne (hline quote hq)) (.delimiter _ (fun d => rfl) ?_ ?_)
    · intro d hd
      exact Cursor.shows_of_startsWith (Bool.and_eq_true_iff.1 hd).1 hne (hline quote hq)
    · exact hvisible quote hq
  · exact .comment h rfl (Cursor.shows_singleton hc (by decide)) (.lineEnd rfl fun d => rfl)
  · exact .opened h rfl (Cursor.shows_singleton hc (by decide))
  · refine .dedented h rfl rfl ?_
    have hlen : s.notes.scratch.scope.frames = frame :: frames := hframes
    rw [hlen] at hf
    simp only [List.length_cons] at hf
    omega
  · exact .plain h rfl

end Python

end LexTree
