import LexTree.Proofs.Extent

/-!
# What the leaves hold of the text

A leaf covers the text from the index where it starts (`State.starts`) up to some index behind it.  Words, symbols,
delimiters and layout hold just the characters they cover.  A string or comment is read in quiet steps, and a quiet step
crosses a whole run of newlines, for which a single newline is read: so its leaf holds what it covers squeezed, and this
is what stands in the text unless a blank line is covered (`Leaf.Covers`).
-/

namespace LexTree

/-! ### Blank lines -/

private theorem not_infix_of_count {cs : List Char} (h : cs.count '\n' ≤ 1) : ¬ ['\n', '\n'] <:+: cs := by
  intro hi
  have hle := hi.sublist.count_le '\n'
  simp only [List.count_cons_self, List.count_nil] at hle
  omega

private theorem not_infix_of_not_mem {cs : List Char} (h : '\n' ∉ cs) : ¬ ['\n', '\n'] <:+: cs :=
  not_infix_of_count (by rw [List.count_eq_zero_of_not_mem h]; exact Nat.zero_le 1)

private theorem not_suffix_of_getLast? {cs : List Char} (h : cs.getLast? ≠ some '\n') : ¬ ['\n', '\n'] <:+ cs := by
  rintro ⟨ds, rfl⟩
  simp at h

/-- A text is what is left without the newlines at its end, and these. -/
private theorem exists_append_newlines (cs : List Char) :
    ∃ ds k, cs = ds ++ List.replicate k '\n' ∧ ds.getLast? ≠ some '\n' := by
  refine ⟨cs.rdropWhile (· = '\n'), (cs.rtakeWhile (· = '\n')).length, ?_, ?_⟩
  · have hall : ∀ c ∈ cs.rtakeWhile (· = '\n'), c = '\n' := fun c hc => by simpa using List.mem_rtakeWhile_imp hc
    rw [← List.eq_replicate_iff.2 ⟨rfl, hall⟩, List.rdropWhile_append_rtakeWhile]
  · intro hn
    have hne : cs.rdropWhile (· = '\n') ≠ [] := by
      intro he
      rw [he] at hn
      cases hn
    apply List.rdropWhile_last_not (· = '\n') cs hne
    rw [List.getLast?_eq_some_getLast hne] at hn
    simpa using hn

/-! ### Slices -/

namespace Leaf

/-- The text of a leaf stands in the text from an index on. -/
def IsSliceAt (cs : List Char) (p : Nat) (l : Leaf) : Prop :=
  l.text.toList = (cs.take (p + l.text.length)).drop p

/-- Strings, and the comments that end at a delimiter: they may go on over several lines. -/
def isMultiline (l : Leaf) : Bool :=
  l.rule = .other &&
    (l.name = SymbolicName.string || l.name = SymbolicName.comment && "/*".toList.isPrefixOf l.text.toList)

/-- A leaf covers the text from `p` up to `q`: it holds the characters there, with every run of newlines made one.  This
is what stands at `p` if there is no blank line between `p` and `q`, and only then. -/
structure Covers (cs : List Char) (p q : Nat) (l : Leaf) : Prop where
  nonempty : p < q
  within : q ≤ cs.length
  squeezed : l.text.toList = squeeze ((cs.take q).drop p)
  isSliceAt_iff : l.IsSliceAt cs p ↔ ¬ ['\n', '\n'] <:+: (cs.take q).drop p
  isSliceAt : l.isMultiline = false → l.IsSliceAt cs p

variable {cs : List Char} {p q : Nat} {l : Leaf}

private theorem isSliceAt_iff_isPrefix : l.IsSliceAt cs p ↔ l.text.toList <+: cs.drop p := by
  rw [IsSliceAt, List.drop_take, Nat.add_sub_cancel_left, ← String.length_toList, List.prefix_iff_eq_take]

private theorem Covers.of_squeezed (squeezed : l.text.toList = squeeze ((cs.take q).drop p)) (within : q ≤ cs.length)
    (ne_nil : (cs.take q).drop p ≠ []) (last : ¬ ['\n', '\n'] <:+ (cs.take q).drop p)
    (single : l.isMultiline = false → ¬ ['\n', '\n'] <:+: (cs.take q).drop p) : l.Covers cs p q := by
  have hslice : (cs.take q).drop p <+: cs.drop p := by
    rw [List.drop_take]
    exact List.take_prefix _ _
  have hiff : l.IsSliceAt cs p ↔ ¬ ['\n', '\n'] <:+: (cs.take q).drop p := by
    rw [isSliceAt_iff_isPrefix, squeezed, ← squeeze_isPrefix_iff last]
    exact ⟨fun h => List.prefix_of_prefix_length_le h hslice (thinned_squeeze _).length_le, fun h => h.trans hslice⟩
  refine ⟨?_, within, squeezed, hiff, fun h => hiff.2 (single h)⟩
  by_contra hle
  exact ne_nil (List.drop_eq_nil_of_le (by rw [List.length_take]; omega))

/-- What stands in the text without a blank line is covered as it is. -/
private theorem Covers.of_isPrefix (h : l.text.toList <+: cs.drop p) (ne_nil : l.text.toList ≠ [])
    (single : ¬ ['\n', '\n'] <:+: l.text.toList) : l.Covers cs p (p + l.text.length) := by
  have hslice : (cs.take (p + l.text.length)).drop p = l.text.toList := (isSliceAt_iff_isPrefix.2 h).symm
  have hlen := h.length_le
  rw [List.length_drop, String.length_toList] at hlen
  have hpos : 0 < l.text.length := by
    rw [← String.length_toList]
    exact List.length_pos_iff.2 ne_nil
  refine .of_squeezed ?_ (by omega) ?_ ?_ ?_ <;> rw [hslice]
  · rw [(thinned_squeeze _).eq_of_no_adjacent single]
  · exact ne_nil
  · exact fun hs => single hs.isInfix
  · exact fun _ => single

end Leaf

/-! ### Strings and comments -/

private theorem Cursor.Shows.toList_ne_nil {c : Cursor} {delimiter : String} (h : c.Shows delimiter) :
    delimiter.toList ≠ [] := fun hn => h.ne_empty (String.toList_eq_nil_iff.1 hn)

private theorem Cursor.Shows.slice_eq {c : Cursor} {delimiter : String} {q : Nat} (h : c.Shows delimiter)
    (hq : c.index + delimiter.length ≤ q) :
    (c.text.toList.take q).drop c.index =
      delimiter.toList ++ (c.text.toList.take q).drop (c.index + delimiter.length) := by
  obtain ⟨rest, hrest⟩ := h.here
  have hlen : delimiter.toList.length = delimiter.length := String.length_toList
  have hdrop : c.text.toList.drop (c.index + delimiter.length) = rest := by
    rw [← List.drop_drop, ← hrest, List.drop_left' hlen]
  rw [List.drop_take, List.drop_take, hdrop, ← hrest, List.take_append, List.take_of_length_le (by omega), hlen,
    Nat.sub_add_eq]

private theorem not_mem_slice {cs : List Char} {ch : Char} {p q : Nat} (h : ∀ k, p ≤ k → k < q → cs[k]? ≠ some ch) :
    ch ∉ (cs.take q).drop p := by
  intro hmem
  obtain ⟨k, hk⟩ := List.mem_iff_getElem?.1 hmem
  rw [List.getElem?_drop, List.getElem?_take] at hk
  split at hk
  · exact h (p + k) (by omega) (by omega) hk
  · cases hk

namespace Form

variable {ends : Predicate} {c : Cursor} {n : Notes} {f : Form} {chars : List Char} {j : Nat}

/-- What a construct of a form that opens at `c` covers ends at `q`: behind its opening delimiter, and not on a blank
line; what ends with its line has one newline at most. -/
structure Covers (f : Form) (c : Cursor) (q : Nat) : Prop where
  opened : c.index + f.opening.length ≤ q
  within : q ≤ c.text.toList.length
  last : ¬ ['\n', '\n'] <:+ (c.text.toList.take q).drop c.index
  single : ∀ opening, f = .line opening → ((c.text.toList.take q).drop c.index).count '\n' ≤ 1

private theorem Opens.no_newline {opening : String} {q : Nat} (hf : (line opening).Opens ends c n)
    (hno : ∀ k, c.index + opening.length ≤ k → k < q → (line opening).closesAt c.text.toList k = false) :
    '\n' ∉ (c.text.toList.take q).drop c.index := by
  refine not_mem_slice fun k hle hlt => ?_
  rcases Nat.lt_or_ge k (c.index + opening.length) with hk | hk
  · rw [Array.getElem?_toList]
    exact hf.shown.no_newline hle hk
  · simpa [closesAt] using hno k hk hlt

private theorem Opens.covers_ended {e : Nat} (hf : f.Opens ends c n)
    (least : IsLeast {e | c.index + f.opening.length ≤ e ∧ f.closesAt c.text.toList e = true} e) :
    f.Covers c (e + f.closing.length) := by
  obtain ⟨⟨hle, hcl⟩, hleast⟩ := least
  have hclosing := isPrefixOf_of_closesAt hcl
  have hlt := lt_length_of_closesAt hf.asks.closing_ne hcl
  have hlen := hclosing.length_le
  rw [List.length_drop, String.length_toList] at hlen
  have hslice : (c.text.toList.take (e + f.closing.length)).drop c.index =
      (c.text.toList.take e).drop c.index ++ f.closing.toList := by
    rw [List.take_add, ← String.length_toList, ← List.prefix_iff_eq_take.1 hclosing,
      List.drop_append_of_le_length (by rw [List.length_take]; omega)]
  have hsingle : ∀ opening, f = .line opening →
      ((c.text.toList.take (e + f.closing.length)).drop c.index).count '\n' ≤ 1 := by
    rintro opening rfl
    have hno : '\n' ∉ (c.text.toList.take e).drop c.index := by
      refine hf.no_newline fun k hk hke => ?_
      by_contra hc
      exact absurd (hleast ⟨hk, by simpa using hc⟩) (Nat.not_le.2 hke)
    rw [hslice, List.count_append, List.count_eq_zero_of_not_mem hno, toList_closing_line]
    exact Nat.le_refl 1
  refine ⟨by omega, by omega, ?_, hsingle⟩
  -- the last character covered belongs to the closing delimiter
  cases hf.asks with
  | delimiter ne_empty one_line asked =>
    apply not_suffix_of_getLast?
    intro hlast
    have hne : f.closing.toList ≠ [] := fun hn => ne_empty (String.toList_eq_nil_iff.1 hn)
    rw [hslice, List.getLast?_append_of_ne_nil _ hne] at hlast
    exact one_line (List.mem_of_getLast? hlast)
  | lineEnd opening asked => exact fun hs => not_infix_of_count (hsingle opening rfl) hs.isInfix

private theorem Opens.covers_cutShort (hf : f.Opens ends c n)
    (never : ∀ e, c.index + f.opening.length ≤ e → f.closesAt c.text.toList e = false) :
    ∃ q, f.Covers c q ∧
      chomp (squeeze (c.text.toList.drop c.index)) = squeeze ((c.text.toList.take q).drop c.index) := by
  -- the newlines at the end of the text are crossed, but nothing is read for them
  obtain ⟨ds, k, hds, hlast⟩ := exists_append_newlines (c.text.toList.drop (c.index + f.opening.length))
  have hfull : c.index + f.opening.length ≤ c.text.toList.length := by
    rw [Array.length_toList]
    exact hf.shown.index_add_le
  have hwhole := hf.shown.slice_eq hfull
  rw [List.take_length] at hwhole
  have hlen := congrArg List.length hds
  rw [List.length_append, List.length_drop] at hlen
  have hslice : (c.text.toList.take (c.index + f.opening.length + ds.length)).drop c.index =
      f.opening.toList ++ ds := by
    rw [hf.shown.slice_eq (by omega), List.drop_take, Nat.add_sub_cancel_left, hds, List.take_left]
  have hkept : (f.opening.toList ++ ds).getLast? ≠ some '\n' := by
    rw [List.getLast?_append]
    intro hn
    cases hd : ds.getLast? with
    | none =>
      rw [hd, Option.none_or] at hn
      exact hf.shown.one_line (List.mem_of_getLast? hn)
    | some ch =>
      rw [hd, Option.some_or] at hn
      exact hlast (hd.trans hn)
  refine ⟨c.index + f.opening.length + ds.length, ⟨by omega, by omega, ?_, ?_⟩, ?_⟩
  · rw [hslice]
    exact not_suffix_of_getLast? hkept
  · rintro opening rfl
    rw [List.count_eq_zero_of_not_mem (hf.no_newline fun e he _ => never e he)]
    exact Nat.zero_le 1
  · rw [hwhole, hds, ← List.append_assoc, chomp_squeeze_append_newlines hkept, hslice]

/-- The characters read for a construct are those it covers, squeezed. -/
private theorem Opens.exists_covers (hf : f.Opens ends c n) (h : f.Extent c.text.toList c.index j chars) :
    ∃ q, f.Covers c q ∧ chars = squeeze ((c.text.toList.take q).drop c.index) := by
  cases h with
  | ended least => exact ⟨_, hf.covers_ended least, rfl⟩
  | cutShort never past => exact hf.covers_cutShort never

/-- The leaf of a construct covers what the construct covers. -/
private theorem Opens.leaf_covers {l : Leaf} (hf : f.Opens ends c n)
    (h : f.Extent c.text.toList c.index j l.text.toList)
    (hl : (∃ opening, f = .line opening) ∨ (f.opening.toList <+: l.text.toList → l.isMultiline = true)) :
    ∃ q, l.Covers c.text.toList c.index q := by
  obtain ⟨q, hq, hchars⟩ := hf.exists_covers h
  have hslice := hf.shown.slice_eq hq.opened
  refine ⟨q, .of_squeezed hchars hq.within ?_ hq.last ?_⟩
  · rw [hslice]
    exact List.append_ne_nil_of_left_ne_nil hf.shown.toList_ne_nil _
  · intro hm
    rcases hl with ⟨opening, rfl⟩ | hl
    · exact not_infix_of_count (hq.single opening rfl)
    · rw [hslice, squeeze_append_of_not_mem hf.shown.one_line] at hchars
      rw [hl ⟨_, hchars.symm⟩] at hm
      cases hm

end Form

/-! ### Words, delimiters and layout -/

/-- The leaf that an event adds to the tree, if it adds a token. -/
def Event.token? : Event → Option (Option Leaf)
  | leaf l => some (some l)
  | opened .. => some none
  | closed => none

private theorem Event.map_leaf?_logFrom (depth : Nat) (es : List Event) :
    (logFrom depth es).map Entry.leaf? = es.filterMap token? := by
  induction es generalizing depth with
  | nil => rfl
  | cons e es ih =>
    cases e <;> simp [logFrom, entries, ih, List.filterMap_cons, Entry.leaf?, token?]

/-- A leaf covers the text from an index on. -/
def Leaf.CoversFrom (cs : List Char) (p : Nat) (l : Leaf) : Prop := ∃ q, l.Covers cs p q

namespace State

variable {L : Language} {o : Options} {cs : List Char} {s s' t : State} {heads : List State}

/-- The word stands right before the cursor, if the cursor has not left the text. -/
private theorem Exact.covers_word (h : Exact o s) (hin : s.word = "" ∨ s.cursor.index ≤ s.cursor.text.size) :
    List.Forall₂ (Leaf.CoversFrom s.cursor.text.toList) s.wordStart (s.wordLeaves L) := by
  unfold wordStart wordLeaves
  split
  · exact .nil
  rename_i hw
  have hle : s.cursor.index ≤ s.cursor.text.toList.length := by
    rcases hin with hin | hin
    · exact absurd (by rw [hin]; rfl) hw
    · rw [Array.length_toList]
      exact hin
  have hslice : s.word.toList = (s.cursor.text.toList.take s.cursor.index).drop (s.cursor.index - s.word.length) := by
    have hsuffix := List.suffix_iff_eq_drop.1 h.word
    rwa [List.length_take, Nat.min_eq_left hle, String.length_toList] at hsuffix
  have hhere : s.word.toList <+: s.cursor.text.toList.drop (s.cursor.index - s.word.length) := by
    rw [hslice, List.drop_take]
    exact List.take_prefix _ _
  have hline : '\n' ∉ s.word.toList := by
    rw [hslice]
    exact not_mem_slice fun k hk hlt => h.one_line k (by omega) hlt
  have hne : s.word.toList ≠ [] := fun hn => hw (String.isEmpty_iff.2 (String.toList_eq_nil_iff.1 hn))
  exact .cons ⟨_, .of_isPrefix hhere hne (not_infix_of_not_mem hline)⟩ .nil

private theorem covers_delimiter {text : String} (h : text = "" ∨ s.cursor.Shows text) :
    List.Forall₂ (Leaf.CoversFrom s.cursor.text.toList)
      (List.replicate (if text.isEmpty then 0 else 1) s.cursor.index) (s.delimiterLeaves L text) := by
  unfold delimiterLeaves
  split
  · exact .nil
  · rename_i hd
    rcases h with rfl | h
    · exact absurd rfl hd
    · exact .cons ⟨_, .of_isPrefix h.here h.toList_ne_nil (not_infix_of_not_mem h.one_line)⟩ .nil

/-- A leaf that holds one character covers it. -/
private theorem covers_char {l : Leaf} {ch : Char} {i : Nat} (hi : s.cursor.text[i]? = some ch)
    (hl : l.text.toList = [ch]) : l.CoversFrom s.cursor.text.toList i := by
  refine ⟨_, .of_isPrefix ?_ ?_ ?_⟩ <;> rw [hl]
  · rw [drop_eq_cons hi]
    exact List.prefix_append [ch] _
  · exact List.cons_ne_nil ch []
  · exact not_infix_of_count List.count_le_length

private theorem covers_crossed (hn : s.cursor.current? = some '\n') :
    List.Forall₂ (Leaf.CoversFrom s.cursor.text.toList)
      ((if o.includeNewlines then [s.cursor.index] else []) ++
        if o.includeWhitespace && s.cursor.index + 1 < blankRunEnd s.cursor.text (s.cursor.index + 1) then
          [s.cursor.index + 1]
        else [])
      (s.crossedLeaves o) := by
  simp only [crossedLeaves, Cursor.not_isEmpty_blankRun]
  refine List.rel_append ?_ ?_
  · split
    · exact .cons (covers_char hn (by decide : "\n".toList = ['\n'])) .nil
    · exact .nil
  · split
    · rename_i hb
      have hrun : s.cursor.blankRun (s.cursor.index + 1) ≠ [] := by
        have hlen := s.cursor.add_length_blankRun (s.cursor.index + 1)
        rw [Bool.and_eq_true, decide_eq_true_iff] at hb
        exact List.length_pos_iff.1 (by omega)
      have hline : '\n' ∉ s.cursor.blankRun (s.cursor.index + 1) := by
        intro hmem
        have hblank := Cursor.isBlank_of_mem_blankRun hmem
        rw [isBlank_newline] at hblank
        cases hblank
      refine .cons ⟨_, .of_isPrefix ?_ ?_ ?_⟩ .nil <;> rw [String.toList_ofList]
      · exact s.cursor.blankRun_isPrefix _
      · exact hrun
      · exact not_infix_of_not_mem hline
    · exact .nil

private theorem covers_newline (hn : s.cursor.current? = some '\n') :
    ∃ leaves : List Leaf, (s.newline o).events.toList = s.events.toList ++ leaves.map .leaf ∧
      List.Forall₂ (Leaf.CoversFrom s.cursor.text.toList) (newlineStarts o s.cursor.text s.cursor.index) leaves := by
  fun_induction newline s o with
  | case1 s next hp ih =>
    -- the next newline stands right after the blanks of the line
    have hi : next.cursor.index + 1 = blankRunEnd s.cursor.text (s.cursor.index + 1) := index_crossNewline s o
    have ht : next.cursor.text = s.cursor.text := text_crossNewline s o
    obtain ⟨leaves, he, hl⟩ := ih hp
    simp only [hi, ht] at hl
    rw [Cursor.peek?, ht, hi] at hp
    refine ⟨s.crossedLeaves o ++ leaves, ?_, ?_⟩
    · rw [he, events_crossNewline, List.map_append, List.append_assoc]
    · rw [newlineStarts, dif_pos hp]
      exact List.rel_append (covers_crossed hn) hl
  | case2 s next hp =>
    have hi : next.cursor.index + 1 = blankRunEnd s.cursor.text (s.cursor.index + 1) := index_crossNewline s o
    have ht : next.cursor.text = s.cursor.text := text_crossNewline s o
    rw [Cursor.peek?, ht, hi] at hp
    refine ⟨s.crossedLeaves o, events_crossNewline s o, ?_⟩
    rw [newlineStarts, dif_neg hp, List.append_nil]
    exact covers_crossed hn

private theorem Exact.covers_plain (h : Exact o s) (hs : s.Inside) :
    ∃ leaves : List Leaf, (s.plain L o).events.toList = s.events.toList ++ leaves.map .leaf ∧
      List.Forall₂ (Leaf.CoversFrom s.cursor.text.toList) (s.plainStarts L o) leaves := by
  have hword := h.covers_word (L := L) (Or.inr (Nat.le_of_lt hs))
  obtain ⟨c, hc⟩ : ∃ c, s.cursor.current? = some c := ⟨_, Array.getElem?_eq_getElem hs⟩
  simp only [State.plain, plainStarts, hc]
  split
  · exact ⟨[], by simp, .nil⟩
  · split
    · rename_i hn
      rw [hn] at hc
      obtain ⟨leaves, he, hl⟩ := covers_newline (s := s.flush L) (o := o) (by rw [cursor_flush]; exact hc)
      rw [cursor_flush] at hl
      refine ⟨s.wordLeaves L ++ leaves, ?_, List.rel_append hword hl⟩
      rw [he, events_flush, List.map_append, List.append_assoc]
    · split
      · exact ⟨s.wordLeaves L, events_flush s L, by rwa [List.append_nil]⟩
      · refine ⟨s.wordLeaves L ++ [⟨s.cursor.line, s.cursor.indent,
          (classifySymbol L.symbols (String.singleton c)).1, (classifySymbol L.symbols (String.singleton c)).2,
          String.singleton c⟩], ?_, ?_⟩
        · simp [emit, events_flush]
        · exact List.rel_append hword (.cons (covers_char hc (String.toList_singleton c)) .nil)

end State

/-! ### Steps -/

/-- A construct of a bundled language ends with its line, or is a string or a delimited comment. -/
private theorem Bundled.opens_form {L : Language} (hL : L ∈ languages) {c : Cursor} {n n' : Notes} {b : Boundary}
    (hb : b.isConstruct = true) (h : L.dispatch c n = .ok (some b) n') (hn : n.suppressed = false) :
    ∃ f : Form, f.Opens (L.predicate b.closing) c n' ∧
      ((∃ opening, f = .line opening) ∨ b = .stringStart ∨ b = .commentStart ∧ f.opening = "/*") := by
  simp only [languages, List.mem_cons, List.not_mem_nil, or_false] at hL
  rcases hL with rfl | rfl | rfl
  · obtain ⟨f, hat, hf⟩ := Java.opens hb h hn
    have hmem := List.mem_of_find?_eq_some hat
    refine ⟨f, hf, ?_⟩
    cases b with
    | stringStart => exact Or.inr (Or.inl rfl)
    | commentStart =>
      simp only [Java.forms, List.mem_cons, List.not_mem_nil, or_false] at hmem
      rcases hmem with rfl | rfl
      · exact Or.inl ⟨_, rfl⟩
      · exact Or.inr (Or.inr ⟨rfl, rfl⟩)
    | scopeStart | scopeEnd => cases hb
  · obtain ⟨f, hat, hf⟩ := Python.opens hb h hn
    have hmem := List.mem_of_find?_eq_some hat
    refine ⟨f, hf, ?_⟩
    cases b with
    | stringStart => exact Or.inr (Or.inl rfl)
    | commentStart =>
      rw [Python.forms, List.mem_singleton] at hmem
      exact Or.inl ⟨_, hmem⟩
    | scopeStart | scopeEnd => cases hb
  · rw [Dull.dispatch_eq] at h
    cases h

namespace State

variable {L : Language} {o : Options} {cs : List Char} {s s' t : State} {heads : List State}

private theorem Honest.shows_opening {n : Notes} (h : s.Honest L)
    (found : L.dispatch s.cursor s.notes.fresh = .ok (some .scopeStart) n) : s.cursor.Shows n.startMarker := by
  cases h with
  | opened found' moves opening =>
    rw [found] at found'
    cases found'
    exact opening
  | plain found' | string found' | comment found' | closed found' | dedented found' =>
    rw [found] at found'
    cases found'

private theorem Honest.shows_closing {n : Notes} (h : s.Honest L)
    (found : L.dispatch s.cursor s.notes.fresh = .ok (some .scopeEnd) n) :
    n.endMarker = "" ∨ s.cursor.Shows n.endMarker := by
  cases h with
  | closed found' moves closing =>
    rw [found] at found'
    cases found'
    exact Or.inr closing
  | dedented found' stays silent inner =>
    rw [found] at found'
    cases found'
    exact Or.inl silent
  | plain found' | string found' | comment found' | opened found' =>
    rw [found] at found'
    cases found'

private theorem covers_construct {b : Boundary} {n : Notes} {f : Form} {chars : List Char} {j : Nat}
    (hb : b.isConstruct = true)
    (hf : f.Opens (L.predicate b.closing) s.cursor n) (h : f.Extent s.cursor.text.toList s.cursor.index j chars)
    (hform : (∃ opening, f = .line opening) ∨ b = .stringStart ∨ b = .commentStart ∧ f.opening = "/*") :
    List.Forall₂ (Leaf.CoversFrom s.cursor.text.toList) (List.replicate (b.tokenCount o n) s.cursor.index)
      (if b.included o then [s.constructLeaf b (String.ofList chars)] else []) := by
  have htext : (s.constructLeaf b (String.ofList chars)).text.toList = chars := String.toList_ofList
  have hleaf : (s.constructLeaf b (String.ofList chars)).CoversFrom s.cursor.text.toList s.cursor.index := by
    refine hf.leaf_covers (by rw [htext]; exact h) ?_
    rcases hform with hline | rfl | ⟨rfl, hopening⟩
    · exact Or.inl hline
    · exact Or.inr fun _ => rfl
    · refine Or.inr fun hpre => ?_
      rw [hopening] at hpre
      rw [Leaf.isMultiline, List.isPrefixOf_iff_prefix.2 hpre]
      rfl
  have hcount : b.tokenCount o n = if b.included o then 1 else 0 := by
    cases b with
    | stringStart | commentStart => rfl
    | scopeStart | scopeEnd => cases hb
  rw [hcount]
  split
  · exact .cons hleaf .nil
  · exact .nil

/-- The tokens that are leaves cover the text from the given indices on. -/
def TokensCover (cs : List Char) (is : List Nat) (new : List Event) : Prop :=
  List.Forall₂ (fun p token => ∀ l ∈ token, Leaf.CoversFrom cs p l) is (new.filterMap Event.token?)

private theorem TokensCover.append {is js : List Nat} {new new' : List Event} (h : TokensCover cs is new)
    (h' : TokensCover cs js new') : TokensCover cs (is ++ js) (new ++ new') := by
  rw [TokensCover, List.filterMap_append]
  exact List.rel_append h h'

private theorem tokensCover_leaves {is : List Nat} {leaves : List Leaf}
    (h : List.Forall₂ (Leaf.CoversFrom cs) is leaves) : TokensCover cs is (leaves.map .leaf) := by
  have htokens : (leaves.map Event.leaf).filterMap Event.token? = leaves.map some := by
    rw [List.filterMap_map]
    exact congrFun List.filterMap_eq_map leaves
  rw [TokensCover, htokens, List.forall₂_map_right_iff]
  exact h.imp fun p l hl l' hl' => Option.some.inj hl' ▸ hl

/-- The leaves that a step emits cover the text from the indices where they start. -/
private theorem Exact.step_covers (h : Exact o s) (hL : L ∈ Bundled.languages) (hh : s.Honest L)
    (hc : s.cursor.Countable) (hs : s.Inside) (hstep : s.step L o = .ok () s') :
    ∃ new, s'.events.toList = s.events.toList ++ new ∧ TokensCover s.cursor.text.toList (starts L o s) new := by
  -- every kind of step emits the gathered word first
  have hword := h.covers_word (L := L) (Or.inr (Nat.le_of_lt hs))
  obtain ⟨new, problems, hemits, hevents, -⟩ := emits_step hstep
  unfold starts
  cases hemits with
  | @plain n leaves found each =>
    rw [step_eq_of_none found] at hstep
    injection hstep with _ hs'
    have hE : Exact o { s with notes := n } := ⟨h.stamps, h.word, h.one_line⟩
    obtain ⟨leaves, he, hcovers⟩ := hE.covers_plain (L := L) hs
    rw [found]
    exact ⟨leaves.map .leaf, by rw [← hs', events_settle, he], tokensCover_leaves hcovers⟩
  | @construct b n problems found hb text cut =>
    obtain ⟨f, hf, hform⟩ := Bundled.opens_form hL hb found rfl
    obtain ⟨chars, he, hextent⟩ := step_extent hb found hf hc h.stamps hstep
    rw [found]
    exact ⟨_, he, tokensCover_leaves (List.rel_append hword (covers_construct hb hf hextent hform))⟩
  | @opened n found =>
    rw [found]
    refine ⟨_, hevents, ?_⟩
    show TokensCover _ (s.wordStart ++ List.replicate ((if n.startMarker.isEmpty then 0 else 1) + 1) s.cursor.index) _
    rw [List.replicate_succ', ← List.append_assoc]
    refine (tokensCover_leaves (List.rel_append hword (covers_delimiter (Or.inr (hh.shows_opening found))))).append ?_
    exact .cons (by simp) .nil
  | @closed n found inner =>
    rw [found]
    refine ⟨_, hevents, (tokensCover_leaves hword).append ?_⟩
    exact tokensCover_leaves (covers_delimiter (hh.shows_closing found))
  | @stray n found outer =>
    rw [found]
    exact ⟨_, hevents, tokensCover_leaves (List.rel_append hword (covers_delimiter (hh.shows_closing found)))⟩

/-! ### Runs -/

/-- The cursor may leave the text behind a construct that is cut short, but then no word is gathered. -/
private theorem word_within_step (hs : s.Inside) (hstep : s.step L o = .ok () s') :
    s'.word = "" ∨ s'.cursor.index ≤ s'.cursor.text.size := by
  obtain ⟨n, found, hs'⟩ | ⟨b, n, s₁, found, -, -⟩ := step_cases hstep
  · have hlt : (plain { s with notes := n } L o).cursor.index < s.cursor.text.size := index_plain_lt hs
    rw [text_step hstep, hs']
    obtain ⟨he, -⟩ | ⟨he, -⟩ := settle_cases s.cursor (plain { s with notes := n } L o) <;> rw [he]
    · exact Or.inr (Nat.le_of_lt hlt)
    · exact Or.inr hlt
  · exact Or.inl (word_of_found found hstep)

private theorem Runs.word_within {text : String} (h : Runs L o (start text) heads t) :
    t.word = "" ∨ t.cursor.index ≤ t.cursor.text.size :=
  (h.invariant (P := fun u => u.word = "" ∨ u.cursor.index ≤ u.cursor.text.size) (Or.inl rfl)
    fun _ _ _ hs hstep => word_within_step hs hstep).2

/-- The leaves emitted by a run cover the text from the indices where they start. -/
private theorem Runs.covers_starts {text : String} (h : Runs L o (start text) heads t) (hL : L ∈ Bundled.languages)
    (hlen : text.length < UInt32.size - 1) :
    TokensCover text.toList (heads.flatMap (starts L o)) t.events.toList := by
  refine h.induction_snoc (P := fun heads u => TokensCover text.toList (heads.flatMap (starts L o)) u.events.toList)
    .nil ?_
  intro heads u u' hr hu hs hstep
  obtain ⟨hE, ht, -⟩ := hr.exact_of_start (Or.inl hL) hlen
  obtain ⟨new, he, hnew⟩ := hE.step_covers hL (hr.honest hL).2 (Cursor.countable_of_toList ht hlen) hs hstep
  rw [ht] at hnew
  rw [he, List.flatMap_append, List.flatMap_singleton]
  exact hu.append hnew

end State

/-! ### Scans -/

open State in
/-- The text of a leaf is what it covers with every run of newlines made one.  A scan of a bundled language gives a tree
whose tokens, in the order of its walk, start at the indices of its run; a leaf that starts at an index covers the text
from there on, and stands in the text as it is unless it covers a blank line, which only a string or a delimited comment
can. -/
theorem scan_leaves_cover {L : Language} {o : Options} (hL : L ∈ Bundled.languages) (hvalid : o.validate = .ok ())
    {text : String} (hlen : text.length < UInt32.size - 1) :
    ∃ heads t, Runs L o (start text) heads t ∧ ¬ t.Inside ∧ scan L o text = .ok (t.finish L) ∧
      List.Forall₂ (fun p token => ∀ l ∈ token, ∃ q, Leaf.Covers text.toList p q l)
        (heads.flatMap (starts L o) ++ t.wordStart) ((t.finish L).root.walk.toList.map Entry.leaf?) := by
  obtain ⟨heads, t, hr, hend, hscan⟩ := scan_bundled hL hvalid text
  obtain ⟨hE, ht, -⟩ := hr.exact_of_start (Or.inl hL) hlen
  have hword := hE.covers_word (L := L) hr.word_within
  rw [ht] at hword
  refine ⟨heads, t, hr, hend, hscan, ?_⟩
  -- the walk of the tree is the log of the events
  rw [show (t.finish L).root = Scope.ofEvents (t.flush L).events from rfl, Scope.walk_ofEvents, Event.log,
    Event.map_leaf?_logFrom, events_flush]
  exact (hr.covers_starts hL hlen).append (tokensCover_leaves hword)

open State in
theorem scan_leaves_cover_blank_line :
    ∃ heads t, Runs Python.language {} (start "x = '''a\n\n b'''\ny") heads t ∧
      scan Python.language {} "x = '''a\n\n b'''\ny" = .ok (t.finish Python.language) ∧
      List.Forall₂ (fun p token => ∀ l ∈ token, ∃ q, Leaf.Covers "x = '''a\n\n b'''\ny".toList p q l)
        (heads.flatMap (starts Python.language {}) ++ t.wordStart)
        ((t.finish Python.language).root.walk.toList.map Entry.leaf?) := by
  have hL : Python.language ∈ Bundled.languages := by simp [Bundled.languages]
  have hlen : "x = '''a\n\n b'''\ny".length < UInt32.size - 1 := by decide
  obtain ⟨heads, t, hr, -, hscan, hcovers⟩ := scan_leaves_cover (o := {}) hL rfl hlen
  exact ⟨heads, t, hr, hscan, hcovers⟩

/-- A blank line in a string is lost, and the text of its leaf stands nowhere in the text. -/
theorem string_loses_blank_line :
    ∃ out l, scan Java.language {} "\"a\n\nb\"" = .ok out ∧ l ∈ out.root.flatten.toList ∧
      ∀ p, ¬ l.IsSliceAt "\"a\n\nb\"".toList p := by
  have hleaves : (scan Java.language {} "\"a\n\nb\"").toOption.map (fun out => out.root.flatten.toList) =
      some [⟨1, 0, .other, SymbolicName.string, "\"a\nb\""⟩] := by decide +kernel
  cases hscan : scan Java.language {} "\"a\n\nb\"" with
  | error e =>
    rw [hscan] at hleaves
    cases hleaves
  | ok out =>
    rw [hscan] at hleaves
    have hout : out.root.flatten.toList = [⟨1, 0, .other, SymbolicName.string, "\"a\nb\""⟩] := Option.some.inj hleaves
    refine ⟨out, _, rfl, by rw [hout]; exact List.mem_singleton_self _, fun p hp => ?_⟩
    have hinfix := (Leaf.isSliceAt_iff_isPrefix.1 hp).isInfix.trans (List.drop_suffix p _).isInfix
    exact absurd hinfix (by decide)

end LexTree
