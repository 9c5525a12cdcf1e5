import LexTree.Proofs.Spans

/-!
# Words and symbols

Outside its strings and comments a text is split into words, the longest runs of word characters, and symbols, the other
characters but blanks and newlines.  A step that passes a word character adds it to the gathered word; any other step
that moves passes characters that belong to no word, and emits the gathered word before anything else (`Takes`).  A step
that stays, to close a block, finds no word gathered (`Python.word_of_closesBlock`).  So the words emitted along a run
are those of the characters passed, up to the one that is being gathered (`Splits`).
-/

namespace LexTree

/-! ### Splitting a text -/

/-- The longest runs of word characters, where `none` stands for a character that is left out. -/
def words (isWord : Char → Bool) (cells : List (Option Char)) : List String :=
  ((cells.splitOnP fun cell => !cell.any isWord).map fun run => String.ofList (run.filterMap id)).filter (· ≠ "")

/-- The characters that are neither in a word nor blank, one by one. -/
def symbols (isWord : Char → Bool) (cells : List (Option Char)) : List Char :=
  (cells.filterMap id).filter fun c => !isWord c && !isBlank c && c ≠ '\n'

/-- No word goes on behind the cells. -/
def EndsBetween (isWord : Char → Bool) (cells : List (Option Char)) : Prop :=
  ∀ cell ∈ cells.getLast?, cell.any isWord = false

section Splitting

variable {isWord : Char → Bool} {xs ys : List (Option Char)} {cell : Option Char}

private theorem words_nil (isWord : Char → Bool) : words isWord [] = [] := by simp [words]

/-- What is in no word separates words. -/
private theorem words_append_cons (h : cell.any isWord = false) :
    words isWord (xs ++ cell :: ys) = words isWord xs ++ words isWord ys := by
  rw [words, List.splitOnP_append_cons xs ys (by simp [h]), List.map_append, List.filter_append]
  rfl

private theorem words_append (h : EndsBetween isWord xs) :
    words isWord (xs ++ ys) = words isWord xs ++ words isWord ys := by
  rcases List.eq_nil_or_concat' xs with rfl | ⟨init, last, rfl⟩
  · rw [words_nil]
    rfl
  · have hlast : last.any isWord = false := h last (by simp)
    rw [List.append_assoc, List.singleton_append, words_append_cons hlast, words_append_cons hlast, words_nil,
      List.append_nil]

private theorem words_eq_nil (h : ∀ cell ∈ xs, cell.any isWord = false) : words isWord xs = [] := by
  induction xs with
  | nil => exact words_nil isWord
  | cons cell xs ih =>
    rw [← List.nil_append (cell :: xs), words_append_cons (h cell List.mem_cons_self), words_nil,
      ih fun cell hc => h cell (List.mem_cons_of_mem _ hc)]
    rfl

private theorem words_of_word {word : String} (h : ∀ c ∈ word.toList, isWord c = true) :
    words isWord (word.toList.map some) = if word.isEmpty then [] else [word] := by
  have hsplit : (word.toList.map some).splitOnP (fun cell => !cell.any isWord) = [word.toList.map some] := by
    refine List.splitOnP_eq_singleton fun cell hcell => ?_
    obtain ⟨c, hc, rfl⟩ := List.mem_map.1 hcell
    simp [h c hc]
  have hword : String.ofList ((word.toList.map some).filterMap id) = word := by
    simp [List.filterMap_map]
  rw [words, hsplit, List.map_singleton, hword]
  by_cases hempty : word = "" <;> simp [hempty]

/-- What is in no word leaves the word before it whole. -/
private theorem words_of_ended {word : String} (h : ∀ c ∈ word.toList, isWord c = true)
    (between : ∀ cell ∈ xs, cell.any isWord = false) :
    words isWord (word.toList.map some ++ xs) = if word.isEmpty then [] else [word] := by
  rw [← words_of_word h]
  cases xs with
  | nil => rw [List.append_nil]
  | cons cell xs =>
    rw [words_append_cons (between cell List.mem_cons_self),
      words_eq_nil fun cell hc => between cell (List.mem_cons_of_mem _ hc), List.append_nil]

private theorem EndsBetween.append (h : EndsBetween isWord xs) (between : ∀ cell ∈ ys, cell.any isWord = false)
    {word : String} (whole : ys = [] → word = "") : EndsBetween isWord (xs ++ word.toList.map some ++ ys) := by
  intro cell hcell
  cases hys : ys.getLast? with
  | none =>
    obtain rfl := List.getLast?_eq_none_iff.1 hys
    rw [whole rfl] at hcell
    exact h cell (by simpa using hcell)
  | some last =>
    rw [List.getLast?_append, hys] at hcell
    cases hcell
    exact between _ (List.mem_of_getLast? hys)

private theorem symbols_append (isWord : Char → Bool) (xs ys : List (Option Char)) :
    symbols isWord (xs ++ ys) = symbols isWord xs ++ symbols isWord ys := by
  rw [symbols, List.filterMap_append, List.filter_append]
  rfl

end Splitting

/-! ### The leaves of words and symbols -/

/-- A word is named by its upper-case form if it is a keyword. -/
def Language.wordName (L : Language) (word : String) : String :=
  if L.keywords.contains word then upper word else SymbolicName.identifier

/-- The names and texts of the leaves of a rule. -/
def ruled (rule : Rule) (leaves : List Leaf) : List (String × String) :=
  (leaves.filter fun l => l.rule = rule).map fun l => (l.name, l.text)

private theorem ruled_append (rule : Rule) (leaves new : List Leaf) :
    ruled rule (leaves ++ new) = ruled rule leaves ++ ruled rule new := by
  rw [ruled, List.filter_append, List.map_append]
  rfl

private theorem ruled_eq_nil {rule : Rule} {leaves : List Leaf} (h : ∀ l ∈ leaves, l.rule ≠ rule) :
    ruled rule leaves = [] := by
  rw [ruled, List.filter_eq_nil_iff.2 fun l hl => by simpa using h l hl, List.map_nil]

private theorem Bundled.classifyWord_eq {L : Language} (hL : L ∈ languages) (word : String) :
    classifyWord L.keywords word = (.keyword, L.wordName word) := by
  have hname : ∀ listed, L.keywords = .ofWords listed → (L.keywords.label? word).getD SymbolicName.identifier =
      L.wordName word := by
    intro listed hk
    rw [Language.wordName, hk, KeywordTable.label?_ofWords]
    split <;> rfl
  simp only [languages, List.mem_cons, List.not_mem_nil, or_false] at hL
  rw [classifyWord, Prod.mk.injEq]
  refine ⟨rfl, ?_⟩
  rcases hL with rfl | rfl | rfl
  · exact hname Java.keywords rfl
  · exact hname Python.keywords rfl
  · exact hname [] rfl

/-- How the splitting goes on: another character of the gathered word, or what ends the word. -/
inductive Takes (L : Language) (word : String) : List (Option Char) → List Leaf → String → Prop
  | word {c : Char} (hc : L.isWordChar c = true) : Takes L word [some c] [] (word.push c)
  | rest {cells : List (Option Char)} {leaves : List Leaf}
      (between : ∀ cell ∈ cells, cell.any L.isWordChar = false) (whole : cells = [] → word = "")
      (words : ruled .keyword leaves = if word.isEmpty then [] else [(L.wordName word, word)])
      (symbols : ruled .symbol leaves =
        (symbols L.isWordChar cells).map fun c => (L.symbolName c, String.singleton c))
      (classified : ∀ l ∈ leaves, l.rule ≠ .unidentified) : Takes L word cells leaves ""

/-- The leaves are the words and symbols of the cells, up to the word that is being gathered. -/
structure Splits (L : Language) (cells : List (Option Char)) (leaves : List Leaf) (word : String) : Prop where
  gathered : ∀ c ∈ word.toList, L.isWordChar c = true
  words : ∃ done, cells = done ++ word.toList.map some ∧ EndsBetween L.isWordChar done ∧
    ruled .keyword leaves = (words L.isWordChar done).map fun w => (L.wordName w, w)
  symbols : ruled .symbol leaves = (symbols L.isWordChar cells).map fun c => (L.symbolName c, String.singleton c)
  classified : ∀ l ∈ leaves, l.rule ≠ .unidentified

namespace Splits

variable {L : Language} {cells new : List (Option Char)} {leaves added : List Leaf} {word word' : String}

private theorem takes (h : Splits L cells leaves word) (ht : Takes L word new added word') :
    Splits L (cells ++ new) (leaves ++ added) word' := by
  obtain ⟨done, rfl, hended, hwords⟩ := h.words
  cases ht with
  | @word c hc =>
    refine ⟨?_, ⟨done, ?_, hended, ?_⟩, ?_, ?_⟩
    · intro d hd
      rw [String.toList_push, List.mem_append, List.mem_singleton] at hd
      rcases hd with hd | rfl
      · exact h.gathered d hd
      · exact hc
    · rw [String.toList_push, List.map_append, List.append_assoc]
      rfl
    · rw [List.append_nil, hwords]
    · rw [List.append_nil, h.symbols, symbols_append _ _ [some c]]
      simp [LexTree.symbols, hc]
    · rw [List.append_nil]
      exact h.classified
  | rest between whole hadded hsymbols hclassified =>
    refine ⟨by simp, ⟨done ++ word.toList.map some ++ new, by simp, hended.append between whole, ?_⟩, ?_, ?_⟩
    · rw [List.append_assoc, words_append hended, words_of_ended h.gathered between, ruled_append, hwords, hadded,
        List.map_append]
      split <;> rfl
    · rw [ruled_append, h.symbols, hsymbols, symbols_append _ _ new, List.map_append]
    · intro l hl
      rcases List.mem_append.1 hl with hl | hl
      · exact h.classified l hl
      · exact hclassified l hl

/-- The words of all the cells are those emitted, and the one that is being gathered. -/
private theorem words_eq (h : Splits L cells leaves word) :
    (LexTree.words L.isWordChar cells).map (fun w => (L.wordName w, w)) =
      ruled .keyword leaves ++ if word.isEmpty then [] else [(L.wordName word, word)] := by
  obtain ⟨done, rfl, hended, hwords⟩ := h.words
  rw [words_append hended, words_of_word h.gathered, List.map_append, hwords]
  split <;> rfl

end Splits

/-! ### Steps -/

namespace State

variable {L : Language} {o : Options} {s s' : State} {chars : List Char}

/-- The leaves emitted so far. -/
def leaves (s : State) : List Leaf := s.events.toList.filterMap Event.leaf?

private theorem leaves_of_events {new : List Event} (h : s'.events.toList = s.events.toList ++ new) :
    s'.leaves = s.leaves ++ new.filterMap Event.leaf? := by
  rw [leaves, h, List.filterMap_append, leaves]

theorem leaves_of_leaves {new : List Leaf} (h : s'.events.toList = s.events.toList ++ new.map .leaf) :
    s'.leaves = s.leaves ++ new := by
  rw [leaves_of_events h, Event.filterMap_leaf?_leaves]

private theorem ruled_wordLeaves (hL : L ∈ Bundled.languages) (s : State) :
    ruled .keyword (s.wordLeaves L) = if s.word.isEmpty then [] else [(L.wordName s.word, s.word)] := by
  rw [wordLeaves, Bundled.classifyWord_eq hL]
  split <;> rfl

private theorem rule_of_mem_wordLeaves {l : Leaf} (h : l ∈ s.wordLeaves L) : l.rule = .keyword := by
  unfold wordLeaves at h
  split at h
  · cases h
  · rw [List.mem_singleton.1 h]

/-- What ends the gathered word is emitted behind it. -/
private theorem takes_rest (hL : L ∈ Bundled.languages) {cells : List (Option Char)} {leaves : List Leaf}
    (between : ∀ cell ∈ cells, cell.any L.isWordChar = false) (whole : cells = [] → s.word = "")
    (rules : ∀ l ∈ leaves, l.rule = .symbol ∨ l.rule = .other)
    (symbols : ruled .symbol leaves =
      (symbols L.isWordChar cells).map fun c => (L.symbolName c, String.singleton c)) :
    Takes L s.word cells (s.wordLeaves L ++ leaves) "" := by
  refine .rest between whole ?_ ?_ ?_
  · rw [ruled_append, ruled_wordLeaves hL, ruled_eq_nil, List.append_nil]
    intro l hl
    rcases rules l hl with h | h <;> simp [h]
  · rw [ruled_append, ruled_eq_nil, List.nil_append, symbols]
    intro l hl
    simp [rule_of_mem_wordLeaves hl]
  · intro l hl
    rcases List.mem_append.1 hl with hl | hl
    · simp [rule_of_mem_wordLeaves hl]
    · rcases rules l hl with h | h <;> simp [h]

/-- A character that is in no word comes behind the gathered word, blanks as the options say. -/
theorem events_plain_of_ne {ch : Char} (here : s.cursor.current? = some ch) (hn : ch ≠ '\n')
    (hw : L.isWordChar ch = false) :
    (s.plain L o).events.toList = s.events.toList ++ (s.wordLeaves L ++
      if isBlank ch then
        if o.includeWhitespace then
          [⟨s.cursor.line, s.cursor.indent, .other, SymbolicName.whitespace, String.singleton ch⟩]
        else []
      else [s.symbolLeaf (L.symbolName ch) (String.singleton ch)]).map .leaf := by
  have hflush := events_flush s L
  simp only [plain, here, hw, hn, if_false, Bool.false_eq_true, classifySymbol_singleton L hn]
  cases isBlank ch <;> cases o.includeWhitespace <;> simp [emit, hflush, symbolLeaf]

private theorem takes_plain (hL : L ∈ Bundled.languages) {n : Notes} {ch : Char}
    (found : L.dispatch s.cursor s.notes.fresh = .ok none n) (moves : n.suppressed = false)
    (here : s.cursor.current? = some ch) (hn : ch ≠ '\n') (hstep : s.step L o = .ok () s') :
    ∃ leaves, s'.leaves = s.leaves ++ leaves ∧ Takes L s.word [some ch] leaves s'.word := by
  rw [step_of_none found, settle_of_moves (s := (s.plain L o).withNotes n) _ moves] at hstep
  injection hstep with _ hstep
  have hword : s'.word = if L.isWordChar ch then s.word.push ch else "" := by
    rw [← hstep]
    exact word_plain here
  have hevents : s'.events = (s.plain L o).events := by rw [← hstep]; rfl
  cases hw : L.isWordChar ch with
  | true =>
    refine ⟨[], ?_, ?_⟩
    · have hsame : (s.plain L o).events = s.events := by simp [plain, here, hw]
      rw [leaves, hevents, hsame, List.append_nil, leaves]
    · rw [hword, if_pos hw]
      exact .word hw
  | false =>
    have hplain := events_plain_of_ne (o := o) here hn hw
    rw [← hevents] at hplain
    rw [hw, if_neg Bool.false_ne_true] at hword
    refine ⟨_, leaves_of_leaves hplain, ?_⟩
    rw [hword]
    refine takes_rest hL (by simpa using hw) (by simp) ?_ ?_
    · cases isBlank ch <;> cases o.includeWhitespace <;> simp [symbolLeaf]
    · cases hb : isBlank ch <;> cases o.includeWhitespace <;> simp [ruled, symbols, symbolLeaf, hw, hb, hn]

private theorem takes_newline (hL : L ∈ Bundled.languages) {n : Notes}
    (found : L.dispatch s.cursor s.notes.fresh = .ok none n) (moves : n.suppressed = false)
    (here : s.cursor.current? = some '\n') (hstep : s.step L o = .ok () s') :
    ∃ leaves, s'.leaves = s.leaves ++ leaves ∧
      Takes L s.word (('\n' :: crossed s.cursor.text s.cursor.index).map some) leaves s'.word := by
  have hw : L.isWordChar '\n' = false := by rw [Bundled.isWordChar_eq hL, isWordChar_newline]
  rw [step_of_none found, settle_of_moves (s := (s.plain L o).withNotes n) _ moves, plain_of_newline hw here] at hstep
  injection hstep with _ hstep
  obtain ⟨layout, he, hlayout⟩ := events_newline (s.flush L) o
  have hevents : s'.events.toList = s.events.toList ++ (s.wordLeaves L ++ layout).map .leaf := by
    rw [← hstep, List.map_append, ← List.append_assoc, ← events_flush]
    exact he
  have hword : s'.word = "" := by
    rw [← hstep]
    exact (frame_newline (s.flush L) o).2.1.trans (word_flush s L)
  have hcells : ∀ c ∈ '\n' :: crossed s.cursor.text s.cursor.index, c = '\n' ∨ isBlank c = true := by
    intro c hc
    rcases List.mem_cons.1 hc with rfl | hc
    · exact Or.inl rfl
    · exact mem_crossed hc
  have hrule : ∀ l ∈ layout, l.rule = .other := by
    intro l hl
    have := hlayout l hl
    simp only [Leaf.isLayout, Bool.and_eq_true, decide_eq_true_eq] at this
    exact this.1
  refine ⟨_, leaves_of_leaves hevents, ?_⟩
  rw [hword]
  refine takes_rest hL ?_ (by simp) (fun l hl => Or.inr (hrule l hl)) ?_
  · intro cell hcell
    obtain ⟨c, hc, rfl⟩ := List.mem_map.1 hcell
    rw [Option.any_some, Bundled.isWordChar_eq hL]
    rcases hcells c hc with rfl | hb
    · exact isWordChar_newline
    · exact isWordChar_of_isBlank hb
  · rw [ruled_eq_nil fun l hl => by simp [hrule l hl], symbols, List.filterMap_map, Function.id_comp,
      List.filterMap_some, List.filter_eq_nil_iff.2, List.map_nil]
    intro c hc
    rcases hcells c hc with rfl | hb
    · simp
    · simp [hb]

private theorem takes_construct (hL : L ∈ Bundled.languages) {b : Boundary} {n : Notes} (hb : b.isConstruct = true)
    (found : L.dispatch s.cursor s.notes.fresh = .ok (some b) n) (hne : chars ≠ []) (hstep : s.step L o = .ok () s') :
    ∃ leaves, s'.leaves = s.leaves ++ leaves ∧ Takes L s.word (chars.map fun _ => none) leaves s'.word := by
  obtain ⟨body, m, hreads⟩ := step_reads hb found hstep
  have hrule : ∀ l ∈ if b.included o then [s.constructLeaf b (bodyText n.startMarker m.endMarker body)] else [],
      l.rule = .other := by
    intro l hl
    split at hl
    · rw [List.mem_singleton.1 hl]
      rfl
    · cases hl
  refine ⟨_, leaves_of_leaves hreads.events, ?_⟩
  rw [hreads.word]
  refine takes_rest hL (by simp) (fun h => absurd (List.map_eq_nil_iff.1 h) hne) (fun l hl => Or.inr (hrule l hl)) ?_
  rw [ruled_eq_nil fun l hl => by simp [hrule l hl]]
  simp [symbols]

/-- The marker of a scope is a symbol. -/
private theorem delimiterLeaves_of_marks {marker : String} {ch : Char} (h : L.Marks s.cursor marker ch) :
    s.delimiterLeaves L marker = [s.symbolLeaf (L.symbolName ch) (String.singleton ch)] := by
  rw [h.marker]
  exact delimiterLeaves_singleton h.no_keyword h.one_line h.no_blank s

private theorem takes_marker (hL : L ∈ Bundled.languages) {marker : String} {ch : Char} (h : L.Marks s.cursor marker ch)
    (hleaves : s'.leaves = s.leaves ++ (s.wordLeaves L ++ s.delimiterLeaves L marker)) (hword : s'.word = "") :
    ∃ leaves, s'.leaves = s.leaves ++ leaves ∧ Takes L s.word [some ch] leaves s'.word := by
  refine ⟨_, hleaves, ?_⟩
  rw [hword, delimiterLeaves_of_marks h]
  refine takes_rest hL (by simpa using h.no_word) (by simp) (by simp [symbolLeaf]) ?_
  simp [ruled, symbols, symbolLeaf, h.no_word, h.no_blank, h.one_line]

theorem leaves_opened {n : Notes} (found : L.dispatch s.cursor s.notes.fresh = .ok (some .scopeStart) n)
    (hstep : s.step L o = .ok () s') :
    s'.leaves = s.leaves ++ (s.wordLeaves L ++ s.delimiterLeaves L n.startMarker) := by
  obtain ⟨new, problems, hemits, he, -⟩ := emits_step hstep
  rw [leaves_of_events he]
  cases hemits with
  | plain found' | closed found' | stray found' => cases found.symm.trans found'
  | construct found' hb =>
    cases found.symm.trans found'
    cases hb
  | opened found' =>
    cases found.symm.trans found'
    rw [List.filterMap_append, Event.filterMap_leaf?_leaves]
    simp [Event.leaf?]

theorem leaves_closed {n : Notes} (found : L.dispatch s.cursor s.notes.fresh = .ok (some .scopeEnd) n)
    (hstep : s.step L o = .ok () s') :
    s'.leaves = s.leaves ++ (s.wordLeaves L ++ s.delimiterLeaves L n.endMarker) := by
  obtain ⟨new, problems, hemits, he, -⟩ := emits_step hstep
  rw [leaves_of_events he]
  cases hemits with
  | plain found' | opened found' => cases found.symm.trans found'
  | construct found' hb =>
    cases found.symm.trans found'
    cases hb
  | closed found' =>
    cases found.symm.trans found'
    rw [List.filterMap_append, List.filterMap_cons_none rfl, Event.filterMap_leaf?_leaves, Event.filterMap_leaf?_leaves]
  | stray found' =>
    cases found.symm.trans found'
    rw [Event.filterMap_leaf?_leaves]

/-- A step splits what it passes, as long as no block is closed inside a word. -/
private theorem Moves.takes (h : s.Moves L chars) (hL : L ∈ Bundled.languages) (hstep : s.step L o = .ok () s')
    (whole : ∀ n, L.dispatch s.cursor s.notes.fresh = .ok (some .scopeEnd) n → n.endMarker = "" → s.word = "") :
    ∃ leaves, s'.leaves = s.leaves ++ leaves ∧
      Takes L s.word (chars.map fun c => if (s.span? L o).isSome then none else some c) leaves s'.word := by
  rw [isSome_span? hstep]
  cases h with
  | construct found hb ne_nil =>
    simp only [found_of_dispatch found, Option.any_some, hb, if_true]
    exact takes_construct hL hb found ne_nil hstep
  | plain found moves here one_line =>
    rw [found_of_dispatch found]
    exact takes_plain hL found moves here one_line hstep
  | newline found moves here =>
    rw [found_of_dispatch found]
    exact takes_newline hL found moves here hstep
  | opened found moves marks =>
    rw [found_of_dispatch found]
    exact takes_marker hL marks (leaves_opened found hstep) (word_of_found found hstep)
  | closed found moves marks =>
    rw [found_of_dispatch found]
    exact takes_marker hL marks (leaves_closed found hstep) (word_of_found found hstep)
  | @dedented n found silent =>
    refine ⟨_, leaves_closed found hstep, ?_⟩
    rw [word_of_found found hstep, silent]
    exact takes_rest hL (by simp) (fun _ => whole n found silent) (by simp [delimiterLeaves]) (by
      simp [delimiterLeaves, ruled, symbols])

end State

/-! ### Runs -/

namespace Python

open State

variable {o : Options} {text : String} {heads : List State} {u : State}

/-- Where a block ends no word is being gathered: a word stands on one line, and its first character saw no block end
on that line. -/
theorem word_of_closesBlock (h : Runs language o (start text) heads u) (hblock : closesBlock u.cursor u.notes = true) :
    u.word = "" := by
  have hkept : u.word ≠ "" → closesBlock u.cursor u.notes = false := by
    refine h.invariant_along (P := fun u => u.word ≠ "" → closesBlock u.cursor u.notes = false)
      (fun hw => absurd rfl hw) ?_
    intro heads u u' hr _ hs hstep hword
    rcases dispatch_cases u.cursor u.notes.fresh with
      ⟨quote, -, -, found⟩ | ⟨-, found⟩ | ⟨-, -, found⟩ | ⟨frame, frames, -, -, found⟩ | ⟨-, hblock, found⟩
    iterate 4 exact absurd (word_of_found found hstep) hword
    -- a word character changes neither the line nor the frames
    obtain ⟨ch, hch⟩ : ∃ ch, u.cursor.current? = some ch := ⟨_, Array.getElem?_eq_getElem hs⟩
    have hscratch := scratch_step hr found hstep
    rw [step_of_none found, settle_of_moves (s := (u.plain language o).withNotes _) _ rfl] at hstep
    injection hstep with _ hstep
    have hgathered : u'.word = if isWordChar ch then u.word.push ch else "" := by
      rw [← hstep]
      exact word_plain hch
    have hn : ch ≠ '\n' := by
      rintro rfl
      rw [isWordChar_newline] at hgathered
      exact hword hgathered
    have hframe : u'.cursor.frame = u.cursor.frame := by
      rw [← hstep]
      show (u.plain language o).cursor.frame = _
      rw [cursor_plain_of_ne hch hn]
    rw [closesBlock_congr hframe (n := u.notes) (by rw [hscratch]; rfl)]
    exact hblock
  by_contra hword
  rw [hkept hword] at hblock
  cases hblock

end Python

namespace State

variable {L : Language} {o : Options} {text : String} {heads : List State} {t : State}

private theorem Runs.whole (h : Runs L o (start text) heads t) (hL : L ∈ Bundled.languages) {n : Notes}
    (found : L.dispatch t.cursor t.notes.fresh = .ok (some .scopeEnd) n) (silent : n.endMarker = "") : t.word = "" := by
  simp only [Bundled.languages, List.mem_cons, List.not_mem_nil, or_false] at hL
  rcases hL with rfl | rfl | rfl
  · rcases Java.dispatch_cases t.cursor t.notes.fresh with
      ⟨quote, -, -, hd⟩ | ⟨-, hd⟩ | ⟨-, hd⟩ | ⟨-, hd⟩ | ⟨-, hd⟩ | ⟨-, -, hd⟩
    all_goals
      rw [found] at hd
      cases hd
    exact absurd (show "\x7d" = "" from silent) (by decide)
  · rcases Python.dispatch_cases t.cursor t.notes.fresh with
      ⟨quote, -, -, hd⟩ | ⟨-, hd⟩ | ⟨-, -, hd⟩ | ⟨frame, frames, -, hblock, hd⟩ | ⟨-, -, hd⟩
    all_goals
      rw [found] at hd
      cases hd
    exact Python.word_of_closesBlock h hblock
  · cases found

/-- The leaves of a run are the words and symbols of the characters passed outside strings and comments. -/
private theorem Runs.splits (h : Runs L o (start text) heads t) (hL : L ∈ Bundled.languages) :
    Splits L (outside (spans L o heads) t.cursor.before) t.leaves t.word := by
  refine h.induction_snoc
    (P := fun heads u => Splits L (outside (spans L o heads) u.cursor.before) u.leaves u.word) ?_ ?_
  · refine ⟨by simp [start], ⟨[], rfl, by simp [EndsBetween], ?_⟩, rfl, by simp [leaves, start]⟩
    rw [words_nil]
    rfl
  · intro heads u u' hr ih hs hstep
    obtain ⟨chars, hbefore, hmoves⟩ := (hr.honest hL).2.moves_step hL hs hstep
    obtain ⟨leaves, hleaves, htakes⟩ := hmoves.takes hL hstep fun n => hr.whole hL
    rw [hr.outside_step hs hstep hbefore, hleaves]
    exact ih.takes htakes

end State

open State in
/-- Words and symbols are split exactly.  Of the characters outside strings and comments, the longest runs of word
characters are the leaves of words, in order and under the name of the keyword or that of an identifier; the others but
blanks and newlines are the leaves of symbols, scope delimiters among them, one by one and in order, under the label of
the table or as unknown; and every leaf has a rule.  What is outside is decided by the grammar of the language: a string
or comment goes from where one of its forms opens to where that form ends, and outside of these none opens. -/
theorem scan_splits {L : Language} {o : Options} (hL : L ∈ Bundled.languages) (ho : o.validate = .ok ())
    (text : String) :
    ∃ heads t, Runs L o (start text) heads t ∧ ¬ t.Inside ∧ scan L o text = .ok (t.finish L) ∧
      ruled .keyword (t.finish L).root.flatten.toList =
        (words L.isWordChar (outside (spans L o heads) text.toList)).map (fun w => (L.wordName w, w)) ∧
      ruled .symbol (t.finish L).root.flatten.toList =
        (symbols L.isWordChar (outside (spans L o heads) text.toList)).map
          (fun c => (L.symbolName c, String.singleton c)) ∧
      (∀ l ∈ (t.finish L).root.flatten.toList, l.rule ≠ .unidentified) ∧
      (∀ p ∈ spans L o heads, ∃ forms b f, (L, forms) ∈ Bundled.grammars ∧
        Form.at? (forms b) text.toList p.1 = some f ∧
        (text.length < UInt32.size - 1 → ∃ chars, f.Extent text.toList p.1 p.2 chars)) ∧
      ∀ forms, (L, forms) ∈ Bundled.grammars → ∀ i < text.length, covered (spans L o heads) i = false →
        ∀ b, Form.at? (forms b) text.toList i = none := by
  obtain ⟨heads, t, hr, ht, hscan⟩ := scan_bundled hL ho text
  have hsplits := hr.splits hL
  have htext : t.cursor.text.toList = text.toList := congrArg Array.toList hr.text_eq.2
  have hsize : t.cursor.text.size ≤ t.cursor.index := Nat.not_lt.1 ht
  rw [Cursor.before_of_size_le hsize, htext] at hsplits
  -- the word that is being gathered at the end is flushed
  have hflatten : (t.finish L).root.flatten.toList = t.leaves ++ t.wordLeaves L := by
    rw [finish, Scope.flatten_ofEvents]
    exact leaves_of_leaves (events_flush t L)
  refine ⟨heads, t, hr, ht, hscan, ?_, ?_, ?_, hr.spans_open hL, ?_⟩
  · rw [hflatten, ruled_append, ruled_wordLeaves hL, hsplits.words_eq]
  · have hnone : ruled .symbol (t.wordLeaves L) = [] := ruled_eq_nil fun l hl => by simp [rule_of_mem_wordLeaves hl]
    rw [hflatten, ruled_append, hsplits.symbols, hnone, List.append_nil]
  · intro l hl
    rw [hflatten] at hl
    rcases List.mem_append.1 hl with hl | hl
    · exact hsplits.classified l hl
    · simp [rule_of_mem_wordLeaves hl]
  · intro forms hforms i hi
    refine hr.unopened hforms i (Nat.lt_of_lt_of_le ?_ hsize) hi
    rw [hr.text_eq.2, size_start]
    exact hi

open State in
/-- Words right before and behind strings and comments, which hold words of their own. -/
theorem scan_splits_java :
    ∃ (heads : List State) (t : State),
      scan Java.language {} "int a='b c'+d1;/* e */for// f\ng" = .ok (t.finish Java.language) ∧
      words isWordChar (outside (spans Java.language {} heads) "int a='b c'+d1;/* e */for// f\ng".toList) =
        ["int", "a", "d1", "for", "g"] ∧
      symbols isWordChar (outside (spans Java.language {} heads) "int a='b c'+d1;/* e */for// f\ng".toList) =
        ['=', '+', ';'] ∧
      ruled .keyword (t.finish Java.language).root.flatten.toList =
        [(upper "int", "int"), ("IDENTIFIER", "a"), ("IDENTIFIER", "d1"), (upper "for", "for"), ("IDENTIFIER", "g")] ∧
      covered (spans Java.language {} heads) 6 = true := by
  -- the names of the leaves are looked up in tables, so only their texts are computed
  have htexts : (scan Java.language {} "int a='b c'+d1;/* e */for// f\ng").toOption.map
      (fun out => ((ruled .keyword out.root.flatten.toList).map Prod.snd,
        (ruled .symbol out.root.flatten.toList).map Prod.snd)) =
        some (["int", "a", "d1", "for", "g"], ["=", "+", ";"]) := by
    decide +kernel
  have hname : ∀ w, Java.language.wordName w = if w ∈ Java.keywords then upper w else SymbolicName.identifier := by
    intro w
    rw [Language.wordName, show Java.language.keywords = .ofWords Java.keywords from rfl]
    simp only [KeywordTable.contains_ofWords]
  have hquote : Form.at? (Java.forms .stringStart) "int a='b c'+d1;/* e */for// f\ng".toList 6 =
      some (.quoted "'") := by
    decide
  obtain ⟨heads, t, -, -, hscan, hwords, hsymbols, -, -, hnone⟩ :=
    scan_splits (L := Java.language) (o := {}) (by simp [Bundled.languages]) rfl "int a='b c'+d1;/* e */for// f\ng"
  rw [hscan] at htexts
  obtain ⟨hkeyword, hsymbol⟩ := Prod.mk.inj (Option.some.inj htexts)
  rw [hwords, List.map_map] at hkeyword
  rw [hsymbols, List.map_map] at hsymbol
  have hsplit : words isWordChar (outside (spans Java.language {} heads) "int a='b c'+d1;/* e */for// f\ng".toList) =
      ["int", "a", "d1", "for", "g"] := (List.map_id _).symm.trans hkeyword
  refine ⟨heads, t, hscan, hsplit, ?_, ?_, ?_⟩
  · have hinj : Function.Injective String.singleton := by
      intro c d h
      simpa using congrArg String.toList h
    exact hinj.list_map hsymbol
  · rw [hwords, show Java.language.isWordChar = isWordChar from rfl, hsplit]
    simp [hname, Java.keywords, SymbolicName.identifier]
  · by_contra hcovers
    have hnot := hnone Java.forms (by simp [Bundled.grammars]) 6 (by decide) (by simpa using hcovers) .stringStart
    rw [hquote] at hnot
    cases hnot

end LexTree
