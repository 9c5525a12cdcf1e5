import LexTree.Proofs.Blocks
import LexTree.Proofs.Extent

/-!
# Content of Python blocks

Between the colon of a block and the end of its line nothing stands but blanks and a comment, so every later content is
on a line below the colon (`Indented.behind`).  Where a block is still open and something else than a comment, a blank
or a newline is taken, the block does not end there; so the content is indented deeper than the line of the colon.  A
word is emitted later than it is read, but on the same line and before any block opens or closes (`Indented.word`).
-/

namespace LexTree

/-! ### Lines ahead -/

namespace Cursor

variable {o : Options} {c d : Cursor}

private theorem line_le_of_index_le (h : c.Stamps o c.index) (h' : d.Stamps o d.index) (ht : d.text = c.text)
    (hi : c.index ≤ d.index) : c.line ≤ d.line := by
  have hc : c.line.toNat = lineAt c.text.toList c.index := h.1
  have hd : d.line.toNat = lineAt c.text.toList d.index := ht ▸ h'.1
  rw [UInt32.le_iff_toNat_le, hc, hd]
  exact lineAt_mono _ hi

theorem line_lt_of_newline (h : c.Stamps o c.index) (h' : d.Stamps o d.index) (ht : d.text = c.text) {e : Nat}
    (hi : c.index ≤ e) (he : c.text.toList[e]? = some '\n') (hj : e < d.index) : c.line < d.line := by
  have hc : c.line.toNat = lineAt c.text.toList c.index := h.1
  have hd : d.line.toNat = lineAt c.text.toList d.index := ht ▸ h'.1
  have h₁ := lineAt_mono c.text.toList hi
  have h₂ := lineAt_succ_of_newline he
  have h₃ := lineAt_mono c.text.toList (show e + 1 ≤ d.index from hj)
  rw [UInt32.lt_iff_toNat_lt, hc, hd]
  omega

private theorem idle_of_size_le (h : c.text.size ≤ c.index) : c.Idle := by
  have hend : blankRunEnd c.text c.index = c.index := by rw [blankRunEnd, dif_neg (by omega)]
  refine Or.inl ?_
  rw [firstNonBlank?, hend, Array.getElem?_eq_none_iff]
  exact h

/-- Passing a blank keeps the rest of the line idle. -/
private theorem Idle.of_blank {ch : Char} (h : c.Idle) (hc : c.current? = some ch) (hb : isBlank ch = true)
    (ht : d.text = c.text) (hi : d.index = c.index + 1) : d.Idle := by
  obtain ⟨hlt, hch⟩ := Array.getElem?_eq_some_iff.1 hc
  have hend : blankRunEnd c.text c.index = blankRunEnd c.text (c.index + 1) := by
    rw [blankRunEnd, dif_pos hlt, hch, if_pos hb]
  have hfirst : d.firstNonBlank? d.index = c.firstNonBlank? c.index := by
    rw [firstNonBlank?, firstNonBlank?, ht, hi, hend]
  rw [Idle, hfirst]
  exact h

end Cursor

private theorem isBlank_of_isWordChar {ch : Char} (h : isWordChar ch = true) : isBlank ch = false := by
  by_contra hb
  rw [isWordChar_of_isBlank (by simpa using hb)] at h
  cases h

namespace Python

open State

variable {o : Options} {s s' : State}

/-- On a line below that of a place, and indented deeper. -/
def Deeper (place : Option Frame) (line indent : UInt32) : Prop :=
  ∀ f, place = some f → f.line < line ∧ f.indent < indent

/-- The colons of the open blocks are behind: on earlier lines, or on this one with nothing left on it.  A word that is
being gathered belongs to the innermost block. -/
structure Indented (s : State) : Prop where
  behind : ∀ f ∈ s.draft.frames, f.line < s.cursor.line ∨ f.line = s.cursor.line ∧ s.cursor.Idle
  word : s.word ≠ "" → Deeper s.draft.frames.head? s.cursor.line s.cursor.indent

private theorem Indented.line_le (h : Indented s) {f : Frame} (hf : f ∈ s.draft.frames) : f.line ≤ s.cursor.line := by
  rcases h.behind f hf with hlt | ⟨heq, -⟩
  · exact UInt32.le_of_lt hlt
  · exact UInt32.le_of_eq heq

theorem Indented.line_lt (h : Indented s) (hbusy : ¬ s.cursor.Idle) {f : Frame} (hf : f ∈ s.draft.frames) :
    f.line < s.cursor.line := by
  rcases h.behind f hf with hlt | ⟨-, hidle⟩
  · exact hlt
  · exact absurd hidle hbusy

/-- Where content stands and no block ends, it is deeper than the innermost block. -/
private theorem Indented.deeper (h : Indented s) (hlock : Lockstep s) (hbusy : ¬ s.cursor.Idle)
    (hblock : closesBlock s.cursor s.notes = false) : Deeper s.draft.frames.head? s.cursor.line s.cursor.indent := by
  intro f hf
  have hlt := h.line_lt hbusy (List.mem_of_head? hf)
  refine ⟨hlt, ?_⟩
  have htop : s.notes.scratch.topFrame? .scope = some f := by
    rw [← hf, ← hlock]
    rfl
  have hne : s.cursor.line ≠ f.line := fun heq => absurd (heq ▸ hlt) (UInt32.lt_irrefl _)
  rw [closesBlock, htop] at hblock
  simpa [hne] using hblock

private theorem idle_of_endsLine {c d : Cursor} (h : endsLine c = true) (ht : d.text = c.text)
    (hi : d.index = c.index + 1) : d.Idle := by
  have hfirst : d.firstNonBlank? d.index = c.firstNonBlank? (c.index + 1) := by
    rw [Cursor.firstNonBlank?, Cursor.firstNonBlank?, ht, hi]
  rw [Cursor.Idle, hfirst]
  unfold endsLine at h
  split at h
  · exact Or.inl ‹_›
  · exact Or.inr (Or.inl ‹_›)
  · exact Or.inr (Or.inr ‹_›)
  · cases h

/-! ### Steps -/

/-- A string moves the cursor on, from a place where the line was not idle. -/
private theorem Indented.string (h : Indented s) (hE : Exact o s) (hE' : Exact o s') {n : Notes} {quote : String}
    (hquote : openingQuote? s.cursor = some quote)
    (found : language.dispatch s.cursor s.notes.fresh = .ok (some .stringStart) n)
    (hstep : s.step language o = .ok () s') (hframes : s'.draft.frames = s.draft.frames) : Indented s' := by
  have hline := Cursor.line_le_of_index_le hE.stamps hE'.stamps (text_step hstep) (index_le_step hstep)
  refine ⟨?_, fun hw => absurd (word_of_found found hstep) hw⟩
  intro f hf
  rw [hframes] at hf
  exact Or.inl (UInt32.lt_of_lt_of_le (h.line_lt (not_idle_of_openingQuote? hquote) hf) hline)

/-- A comment takes a newline along, or the rest of the text. -/
private theorem Indented.comment (h : Indented s) (hE : Exact o s) (hE' : Exact o s') (hc : s.cursor.Countable)
    {n : Notes} (found : language.dispatch s.cursor s.notes.fresh = .ok (some .commentStart) n)
    (hstep : s.step language o = .ok () s') (hframes : s'.draft.frames = s.draft.frames) : Indented s' := by
  have ht := text_step hstep
  have hline := Cursor.line_le_of_index_le hE.stamps hE'.stamps ht (index_le_step hstep)
  obtain ⟨f, hat, hf⟩ := opens rfl found rfl
  obtain ⟨chars, -, hextent⟩ := step_extent rfl found hf hc hE.stamps hstep
  obtain rfl : f = .line "#" := by
    have hmem := List.mem_of_find?_eq_some hat
    simpa [forms] using hmem
  refine ⟨?_, fun hw => absurd (word_of_found found hstep) hw⟩
  intro g hg
  rw [hframes] at hg
  have hle := h.line_le hg
  rcases hextent.passes_newline with ⟨e, hi, hj, he⟩ | hend
  · exact Or.inl (UInt32.lt_of_le_of_lt hle (Cursor.line_lt_of_newline hE.stamps hE'.stamps ht hi he hj))
  · have hidle : s'.cursor.Idle := by
      apply Cursor.idle_of_size_le
      rw [ht, ← Array.length_toList]
      exact hend
    rcases UInt32.lt_or_eq_of_le (UInt32.le_trans hle hline) with hlt | heq
    · exact Or.inl hlt
    · exact Or.inr ⟨heq, hidle⟩

/-- The colon of a block leaves the rest of its line idle. -/
private theorem Indented.opened (h : Indented s) {n : Notes} (hcolon : s.cursor.current? = some ':')
    (hends : endsLine s.cursor = true)
    (found : language.dispatch s.cursor s.notes.fresh = .ok (some .scopeStart) n) (hn : n.suppressed = false)
    (hmarker : n.startMarker = ":") (hstep : s.step language o = .ok () s')
    (hframes : s'.draft.frames = s.cursor.frame :: s.draft.frames) : Indented s' := by
  have hcur : s'.cursor = { s.cursor with index := s.cursor.index + 1, depth := s.cursor.depth + 1 } := by
    obtain ⟨s₁, hb, rfl⟩ := boundary_of_step found hstep
    have hsup : ((flush { s with notes := n } language).delimiter language ":").openScope.notes.suppressed = false := by
      simp [openScope, hn]
    rw [eq_of_scopeStart hb, notes_flush, hmarker, settle_of_moves _ (by rw [notes_skipRest, hsup]), skipRest,
      if_neg (by simp [hsup]), show ":".length - 1 = 0 by decide]
    simp [moveOn, openScope, Cursor.stepsQuiet]
  refine ⟨?_, fun hw => absurd (word_of_found found hstep) hw⟩
  intro f hf
  rw [hframes] at hf
  rw [hcur]
  rcases List.mem_cons.1 hf with rfl | hf
  · exact Or.inr ⟨rfl, idle_of_endsLine hends rfl rfl⟩
  · exact Or.inl (h.line_lt (Cursor.not_idle_of_current hcolon (by decide) (by decide) (by decide)) hf)

/-- Closing a block leaves the cursor where it is. -/
private theorem Indented.closed (h : Indented s) {n : Notes} (hd : s.cursor.depth ≠ 0)
    (found : language.dispatch s.cursor s.notes.fresh = .ok (some .scopeEnd) n) (hn : n.suppressed = true)
    (hstep : s.step language o = .ok () s') (hframes : s'.draft.frames = s.draft.frames.tail) : Indented s' := by
  have hcur : s'.cursor = { s.cursor with depth := s.cursor.depth - 1 } := by
    obtain ⟨s₁, hb, rfl⟩ := boundary_of_step found hstep
    have hsettle := settle_of_closed (by rw [notes_flush]; exact hn) (by rw [cursor_flush]; exact hd) hb
    rw [cursor_flush] at hsettle
    rw [hsettle.1, hsettle.2, cursor_delimiter, cursor_closeScope, cursor_flush]
  refine ⟨?_, fun hw => absurd (word_of_found found hstep) hw⟩
  intro f hf
  rw [hframes] at hf
  rw [hcur]
  exact h.behind f (List.mem_of_mem_tail hf)

/-- A plain character is part of a word, a newline, or a blank or symbol. -/
private theorem Indented.plain (h : Indented s) (hlock : Lockstep s) (hE : Exact o s) (hE' : Exact o s')
    (hc : s.cursor.Countable) (hs : s.Inside) {n : Notes} (hhash : s.cursor.current? ≠ some '#')
    (hblock : closesBlock s.cursor s.notes = false)
    (found : language.dispatch s.cursor s.notes.fresh = .ok none n) (hn : n.suppressed = false)
    (hstep : s.step language o = .ok () s') (hframes : s'.draft.frames = s.draft.frames) : Indented s' := by
  obtain ⟨ch, hch⟩ : ∃ ch, s.cursor.current? = some ch := ⟨_, Array.getElem?_eq_getElem hs⟩
  have hne : ch ≠ '#' := by
    rintro rfl
    exact hhash hch
  have hs' : s' = (State.plain { s with notes := n } language o).moveOn := by
    rw [step_eq_of_none found] at hstep
    injection hstep with _ hstep
    rw [← hstep, settle_of_moves _ (by rw [(frame_plain ..).1]; exact hn)]
  have hword : s'.word = if isWordChar ch then s.word.push ch else "" := by
    rw [hs']
    exact word_plain (s := { s with notes := n }) hch
  by_cases hnl : ch = '\n'
  · -- the newline is crossed, and ends the word
    rw [hnl] at hch hword
    have hlt : s.cursor.line < s'.cursor.line := by
      have hi : s.cursor.index < s'.cursor.index := by
        have hr := (reaches_plain { s with notes := n } language o).index
        rw [hs']
        exact Nat.lt_succ_of_le hr
      exact Cursor.line_lt_of_newline hE.stamps hE'.stamps (text_step hstep) (Nat.le_refl _)
        (Cursor.current?_eq s.cursor ▸ hch) hi
    rw [isWordChar_newline] at hword
    refine ⟨?_, fun hw => absurd hword hw⟩
    intro f hf
    rw [hframes] at hf
    exact Or.inl (UInt32.lt_of_le_of_lt (h.line_le hf) hlt)
  · have hcur : s'.cursor = { s.cursor with index := s.cursor.index + 1 } := by
      have hE₁ : Exact o { s with notes := n } := ⟨hE.stamps, hE.word, hE.one_line⟩
      have hplain := (hE₁.plain (L := language) hc isWordChar_newline hs).2.2 (by simpa [hch] using hnl)
      rw [hs']
      simp only [moveOn, hplain]
    refine ⟨?_, ?_⟩
    · intro f hf
      rw [hframes] at hf
      rw [hcur]
      by_cases hb : isBlank ch = true
      · rcases h.behind f hf with hlt | ⟨heq, hidle⟩
        · exact Or.inl hlt
        · exact Or.inr ⟨heq, hidle.of_blank hch hb rfl rfl⟩
      · exact Or.inl (h.line_lt (Cursor.not_idle_of_current hch (by simpa using hb) hnl hne) hf)
    · intro hw
      have hwc : isWordChar ch = true := by
        by_contra hwc
        rw [hword, if_neg hwc] at hw
        exact hw rfl
      have hbusy := Cursor.not_idle_of_current hch (isBlank_of_isWordChar hwc) hnl hne
      rw [hframes, hcur]
      exact h.deeper hlock hbusy hblock

private theorem Indented.step (h : Indented s) (hlock : Lockstep s) (hd : s.cursor.depth = s.draft.nested.length)
    (hE : Exact o s) (hE' : Exact o s') (hc : s.cursor.Countable) (hs : s.Inside)
    (hstep : s.step language o = .ok () s') : Indented s' := by
  have hframes := frames_step hstep hd
  rcases dispatch_cases s.cursor s.notes.fresh with
    ⟨quote, hquote, -, found⟩ | ⟨-, found⟩ | ⟨hcolon, hends, found⟩ | ⟨frame, frames, hf, -, found⟩ |
    ⟨hhash, hblock, found⟩
  all_goals rw [found_of_dispatch found] at hframes
  · exact h.string hE hE' hquote found hstep hframes
  · exact h.comment hE hE' hc found hstep hframes
  · exact h.opened hcolon hends found rfl rfl hstep hframes
  · exact h.closed (hlock.depth_ne_zero hd hf) found rfl hstep hframes
  · exact h.plain hlock hE hE' hc hs hhash hblock found rfl hstep hframes

/-! ### Outlines -/

/-- Every leaf of an outline is deeper than its place, apart from trivia and the colons of blocks. -/
def Deep (place : Option Frame) (es : List Event) : Prop :=
  ∀ k l, es[k]? = some (.leaf l) → l.isTrivia = false →
    (l.text = ":" ∧ ∃ line indent, es[k + 1]? = some (.opened line indent)) ∨ Deeper place l.line l.indent

private theorem composable_deep : Composable Deep := by
  refine ⟨?_, ?_⟩
  · intro place k l hk
    cases hk
  · intro place es fs hes hfs k l hk htrivia
    rcases Nat.lt_or_ge k es.length with hlt | hge
    · rw [List.getElem?_append_left hlt] at hk
      rcases hes k l hk htrivia with ⟨htext, line, indent, hnext⟩ | hdeeper
      · have hlt' : k + 1 < es.length := (List.getElem?_eq_some_iff.1 hnext).1
        exact Or.inl ⟨htext, line, indent, by rw [List.getElem?_append_left hlt', hnext]⟩
      · exact Or.inr hdeeper
    · rw [List.getElem?_append_right hge] at hk
      rcases hfs _ l hk htrivia with ⟨htext, line, indent, hnext⟩ | hdeeper
      · refine Or.inl ⟨htext, line, indent, ?_⟩
        rw [List.getElem?_append_right (by omega), ← hnext]
        congr 1
        omega
      · exact Or.inr hdeeper

private theorem deep_leaves {place : Option Frame} {leaves : List Leaf}
    (h : ∀ l ∈ leaves, l.isTrivia = false → Deeper place l.line l.indent) : Deep place (leaves.map .leaf) := by
  intro k l hk htrivia
  rw [List.getElem?_map, Option.map_eq_some_iff] at hk
  obtain ⟨l', hl', heq⟩ := hk
  cases heq
  exact Or.inr (h l (List.mem_of_getElem? hl') htrivia)

/-- The gathered word is deeper than the innermost block. -/
private theorem Indented.deeper_word (h : Indented s) {l : Leaf} (hl : l ∈ s.wordLeaves language) :
    Deeper s.draft.frames.head? l.line l.indent := by
  unfold wordLeaves at hl
  split at hl
  · cases hl
  · rename_i hw
    rw [List.mem_singleton.1 hl]
    exact h.word fun he => hw (by rw [he]; rfl)

private theorem Indented.deep_word (h : Indented s) : Deep s.draft.frames.head? ((s.wordLeaves language).map .leaf) :=
  deep_leaves fun _ hl _ => h.deeper_word hl

private theorem outlined_deep_of_adds {new : List Event} (h : s.draft.Outlined Deep) (hi : Indented s)
    (hlock : Lockstep s) (ha : Adds s new) : (new.foldl Draft.apply s.draft).Outlined Deep := by
  cases ha with
  | leaves each =>
    refine h.leaves composable_deep (deep_leaves ?_)
    intro l hl htrivia
    cases each l hl with
    | word hmem => exact hi.deeper_word hmem
    | trivia ht =>
      rw [ht] at htrivia
      cases htrivia
    | content line indent inner busy =>
      rw [line, indent]
      exact hi.deeper hlock busy inner
  | opened colon ends name =>
    refine h.opened composable_deep ?_
    rw [List.map_append, List.append_assoc]
    refine composable_deep.append _ _ _ hi.deep_word ?_
    intro k l hk htrivia
    match k with
    | 0 =>
      cases hk
      exact Or.inl ⟨rfl, _, _, rfl⟩
    | 1 => cases hk
    | k + 2 => cases hk
  | closed outer => exact h.closed composable_deep hi.deep_word

theorem deep_of_runs {text : String} {heads : List State} {t : State} (hlen : text.length < UInt32.size - 1)
    (h : Runs language o (start text) heads t) : t.draft.Outlined Deep ∧ Indented t := by
  have hL : language ∈ Bundled.languages := by simp [Bundled.languages]
  refine h.invariant_along (P := fun u => u.draft.Outlined Deep ∧ Indented u)
    ⟨Draft.outlined_empty composable_deep, ?_, ?_⟩ ?_
  · intro f hf
    cases hf
  · intro hw
    exact absurd rfl hw
  · rintro heads u u' hr ⟨hdeep, hi⟩ hs hstep
    obtain ⟨hE, ht, -⟩ := hr.exact_of_start (Or.inl hL) hlen
    obtain ⟨hE', -, -⟩ := (hr.snoc hs hstep).exact_of_start (Or.inl hL) hlen
    have hc := Cursor.countable_of_toList ht hlen
    obtain ⟨new, problems, hemits, he, -⟩ := emits_step hstep
    obtain ⟨hadds, -⟩ := adds_of_emits hr.lockstep.2 hr.depth_eq.2 hemits
    refine ⟨?_, hi.step hr.lockstep.2 hr.depth_eq.2 hE hE' hc hs hstep⟩
    rw [draft_of_events he]
    exact outlined_deep_of_adds hdeep hi hr.lockstep.2 hadds

end Python

open State in
/-- Content of a Python block is never dedented: what is neither a comment, a blank, a newline nor the colon of another
block stands on a line below the colon of the innermost block around it, and is indented deeper. -/
theorem scan_python_dedents {o : Options} {text : String} (ho : o.validate = .ok ())
    (hlen : text.length < UInt32.size - 1) :
    ∃ out, scan Python.language o text = .ok out ∧
      ∀ f scope, (some f, scope) ∈ out.root.levels → ∀ k leaf, scope.tokens[k]? = some (.leaf leaf) →
        leaf.isTrivia = false → ¬ (leaf.text = ":" ∧ ∃ t, scope.tokens[k + 1]? = some t ∧ t.isMarker = true) →
          f.line < leaf.line ∧ f.indent < leaf.indent := by
  have hL : Python.language ∈ Bundled.languages := by simp [Bundled.languages]
  obtain ⟨heads, t, hr, -, hscan⟩ := scan_bundled hL ho text
  obtain ⟨hdeep, hi⟩ := Python.deep_of_runs hlen hr
  have hlevels := outlined_flush Python.composable_deep hdeep hi.deep_word
  refine ⟨_, hscan, ?_⟩
  intro f scope hmem k leaf hk htrivia hcolon
  rcases hlevels (some f) scope hmem k leaf (by rw [Scope.getElem?_outline, hk]; rfl) htrivia with
    ⟨htext, line, indent, hnext⟩ | hdeeper
  · rw [Scope.getElem?_outline, Option.map_eq_some_iff] at hnext
    obtain ⟨u, hu, hopened⟩ := hnext
    exact absurd ⟨htext, u, hu, Token.isMarker_of_event hopened⟩ hcolon
  · exact hdeeper f rfl

theorem scan_python_dedents_string :
    ∃ out, scan Python.language {} "if a:  # c\n\n    b\n    if c:\n        d\n'e'" = .ok out ∧
      out.root.levels.map Prod.fst = [none, some ⟨1, 0⟩, some ⟨4, 1⟩] ∧
      ∀ f scope, (some f, scope) ∈ out.root.levels → ∀ k leaf, scope.tokens[k]? = some (.leaf leaf) →
        leaf.isTrivia = false → ¬ (leaf.text = ":" ∧ ∃ t, scope.tokens[k + 1]? = some t ∧ t.isMarker = true) →
          f.line < leaf.line ∧ f.indent < leaf.indent := by
  have hlen : "if a:  # c\n\n    b\n    if c:\n        d\n'e'".length < UInt32.size - 1 := by decide
  have hlevels : (scan Python.language {} "if a:  # c\n\n    b\n    if c:\n        d\n'e'").toOption.map
      (fun out => out.root.levels.map Prod.fst) = some [none, some ⟨1, 0⟩, some ⟨4, 1⟩] := by
    decide +kernel
  obtain ⟨out, hscan, hdeep⟩ := scan_python_dedents (o := {}) rfl hlen
  rw [hscan] at hlevels
  exact ⟨out, hscan, Option.some.inj hlevels, hdeep⟩

end LexTree
