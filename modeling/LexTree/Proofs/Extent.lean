import LexTree.Proofs.Bookkeeping
import LexTree.Proofs.Constructs
import LexTree.Proofs.Leaves
import Mathlib.Data.List.DropRight
import Mathlib.Order.Bounds.Defs

/-!
# The extent of strings and comments

The grammar of a string or comment is its form: between two quotes, between two delimiters, or to the end of the line.
It ends at the first index behind its opening delimiter where its form closes, and if there is none it takes the rest of
the text (`Form.Extent`).  The scan looks for the end character by character and jumps over newlines; it stops exactly
there, because no closing delimiter begins with a newline (`Reading.Seeks`), or because the line of the cursor changes
with the first newline.
-/

namespace LexTree

/-! ### Forms -/

/-- How a string or comment is written. -/
inductive Form where
  /-- From a quote to the next one of its kind that no backslash escapes. -/
  | quoted (quote : String)
  | block (opening closing : String)
  /-- From a delimiter to the end of the line. -/
  | line (opening : String)
deriving DecidableEq

namespace Form

def opening : Form → String
  | quoted quote => quote
  | block opening _ => opening
  | line opening => opening

def closing : Form → String
  | quoted quote => quote
  | block _ closing => closing
  | line _ => "\n"

/-- Whether a construct of a form can end at an index. -/
def closesAt (cs : List Char) (e : Nat) : Form → Bool
  | quoted quote =>
    quote.toList.isPrefixOf (cs.drop e) && ((cs.take e).rtakeWhile (· = '\\')).length % 2 = 0
  | block _ closing => closing.toList.isPrefixOf (cs.drop e)
  | line _ => cs[e]? = some '\n'

/-- Where the scan goes on after a construct that ends at an index: behind its closing delimiter, or on the next line
that is not empty. -/
def resumesAt (cs : List Char) (e : Nat) : Form → Nat
  | line _ => e + ((cs.drop e).takeWhile (· = '\n')).length
  | f => e + f.closing.length

/-- The first of some forms that opens at an index. -/
def at? (forms : List Form) (cs : List Char) (i : Nat) : Option Form :=
  forms.find? fun f => f.opening.toList.isPrefixOf (cs.drop i)

/-- Where a construct that opens at `i` leaves the scan, and the characters of its leaf: from `i` up to its end, with
every run of newlines made one; what the end of the text cuts short loses a final newline. -/
inductive Extent (cs : List Char) (i : Nat) (f : Form) : Nat → List Char → Prop
  | ended {e : Nat} (least : IsLeast {e | i + f.opening.length ≤ e ∧ f.closesAt cs e = true} e) :
      Extent cs i f (f.resumesAt cs e) (squeeze ((cs.take (e + f.closing.length)).drop i))
  | cutShort {j : Nat} (never : ∀ e, i + f.opening.length ≤ e → f.closesAt cs e = false) (past : cs.length ≤ j) :
      Extent cs i f j (chomp (squeeze (cs.drop i)))

theorem toList_closing_line (opening : String) : (line opening).closing.toList = ['\n'] := by
  show "\n".toList = ['\n']
  decide

theorem isPrefixOf_of_closesAt {f : Form} {cs : List Char} {e : Nat} (h : f.closesAt cs e = true) :
    f.closing.toList <+: cs.drop e := by
  cases f with
  | quoted quote => exact List.isPrefixOf_iff_prefix.1 (Bool.and_eq_true_iff.1 h).1
  | block opening closing => exact List.isPrefixOf_iff_prefix.1 h
  | line opening =>
    have he : cs[e]? = some '\n' := by simpa [closesAt] using h
    obtain ⟨hlt, he⟩ := List.getElem?_eq_some_iff.1 he
    rw [List.drop_eq_getElem_cons hlt, he, toList_closing_line]
    exact List.prefix_append ['\n'] _

theorem lt_length_of_closesAt {f : Form} {cs : List Char} {e : Nat} (hne : f.closing ≠ "")
    (h : f.closesAt cs e = true) : e < cs.length := by
  by_contra hle
  have hp := isPrefixOf_of_closesAt h
  rw [List.drop_eq_nil_of_le (by omega), List.prefix_nil] at hp
  exact hne (String.toList_eq_nil_iff.1 hp)

theorem closesAt_of_newline {f : Form} {cs : List Char} {e : Nat} (hne : f.closing ≠ "")
    (hline : '\n' ∉ f.closing.toList) (he : cs[e]? = some '\n') : f.closesAt cs e = false := by
  by_contra h
  obtain ⟨rest, hrest⟩ := isPrefixOf_of_closesAt (by simpa using h)
  obtain ⟨hlt, he⟩ := List.getElem?_eq_some_iff.1 he
  rw [List.drop_eq_getElem_cons hlt, he] at hrest
  cases hc : f.closing.toList with
  | nil => exact hne (String.toList_eq_nil_iff.1 hc)
  | cons x xs =>
    rw [hc] at hrest hline
    injection hrest with hx _
    exact hline (by simp [hx])

private theorem resumesAt_of_one_line {f : Form} (hline : '\n' ∉ f.closing.toList) (cs : List Char) (e : Nat) :
    f.resumesAt cs e = e + f.closing.length := by
  cases f with
  | quoted quote => rfl
  | block opening closing => rfl
  | line opening =>
    rw [toList_closing_line] at hline
    simp at hline

/-- What ends with its line takes a newline along, or the rest of the text. -/
theorem Extent.passes_newline {opening : String} {cs chars : List Char} {i j : Nat}
    (h : (line opening).Extent cs i j chars) :
    (∃ e, i ≤ e ∧ e < j ∧ cs[e]? = some '\n') ∨ cs.length ≤ j := by
  cases h with
  | @ended e least =>
    obtain ⟨⟨hle, hcl⟩, -⟩ := least
    have hnl : cs[e]? = some '\n' := by simpa [closesAt] using hcl
    obtain ⟨hlt, he⟩ := List.getElem?_eq_some_iff.1 hnl
    refine Or.inl ⟨e, by omega, ?_, hnl⟩
    rw [resumesAt, List.drop_eq_getElem_cons hlt, he, List.takeWhile_cons, if_pos (by simp), List.length_cons]
    omega
  | cutShort never past => exact Or.inr past

end Form

/-! ### Looking for the end -/

namespace Cursor

variable {o : Options} {c : Cursor} {delimiter : String}

theorem index_stepQuiet_le (o : Options) (h : c.index < c.text.size) : (c.stepQuiet o).index ≤ c.text.size := by
  fun_induction stepQuiet o c with
  | case1 c next hn ih =>
    have hlt := lt_size_of_current hn
    have hle := ih hlt
    rw [show next.text = c.text from text_advance o c] at hle
    exact hle
  | case2 c next hn =>
    rw [show next.index = c.index + 1 from index_advance o c]
    exact h

theorem Shows.index_add_le (h : c.Shows delimiter) : c.index + delimiter.length ≤ c.text.size := by
  have hpos := h.length_pos
  have hlen := h.here.length_le
  rw [String.length_toList, List.length_drop, Array.length_toList] at hlen
  omega

theorem Shows.index_inside_le (h : c.Shows delimiter) (o : Options) :
    (stepsQuiet o (max delimiter.length 1) c).index ≤ c.text.size := by
  have hpos := h.length_pos
  have hle := h.index_add_le
  have hi := h.index_stepsQuiet o
  have ht := (reaches_stepsQuiet o (delimiter.length - 1) c).text
  rw [show max delimiter.length 1 = delimiter.length - 1 + 1 by omega, stepsQuiet_succ, ← ht]
  apply index_stepQuiet_le
  rw [ht]
  omega

private theorem Shows.length_before (h : c.Shows delimiter) : c.before.length = c.index := by
  have hle := h.index_add_le
  rw [before, List.length_take, Array.length_toList]
  omega

private theorem Shows.length_before_append (h : c.Shows delimiter) :
    (c.before ++ delimiter.toList).length = c.index + delimiter.length := by
  rw [List.length_append, h.length_before, String.length_toList]

private theorem Shows.drop_before_append (h : c.Shows delimiter) (cs : List Char) :
    (c.before ++ cs).drop c.index = cs :=
  List.drop_left' h.length_before

end Cursor

/-- How the end of a construct is asked for that opened at `c` and left the notes `n`. -/
inductive Form.Asks (ends : Predicate) (c : Cursor) (n : Notes) : Form → Prop
  | delimiter {f : Form} (ne_empty : f.closing ≠ "") (one_line : '\n' ∉ f.closing.toList)
      (asked : ∀ d, ends d n = .ok (f.closesAt d.text.toList d.index) n) : Asks ends c n f
  | lineEnd (opening : String) (asked : ∀ d, ends d n = .ok (d.line ≠ c.line) n) : Asks ends c n (.line opening)

theorem Form.Asks.exists_test {ends : Predicate} {c : Cursor} {n : Notes} {f : Form} (h : f.Asks ends c n) :
    ∃ test : Cursor → Bool, ∀ d, ends d n = .ok (test d) n := by
  cases h with
  | delimiter ne_empty one_line asked => exact ⟨_, asked⟩
  | lineEnd opening asked => exact ⟨_, asked⟩

theorem Form.Asks.closing_ne {ends : Predicate} {c : Cursor} {n : Notes} {f : Form} (h : f.Asks ends c n) :
    f.closing ≠ "" := by
  cases h with
  | delimiter ne_empty one_line asked => exact ne_empty
  | lineEnd opening asked => exact (by decide : "\n" ≠ "")

/-- A construct of a form opens at `c`, with the notes `n`. -/
structure Form.Opens (f : Form) (ends : Predicate) (c : Cursor) (n : Notes) : Prop where
  opening : n.startMarker = f.opening
  closing : n.endMarker = f.closing
  shown : c.Shows f.opening
  moves : n.suppressed = false
  asks : f.Asks ends c n

namespace Reading

/-- A construct that opened at `c` has read the characters `src`, which are followed up to the cursor by `k` newlines,
and none of the indices of `src` is its end. -/
structure Seeks (o : Options) (c : Cursor) (f : Form) (src : List Char) (k : Nat) (r : Reading) : Prop
    extends Follows o c.text (c.before ++ f.opening.toList) src k r where
  shown : c.Shows f.opening
  within : r.cursor.index ≤ c.text.size
  read : r.text.toList = squeeze src
  unmet : ∀ e, c.index + f.opening.length ≤ e → e < c.index + f.opening.length + src.length →
    f.closesAt c.text.toList e = false

namespace Seeks

variable {o : Options} {ends : Predicate} {c : Cursor} {n : Notes} {f : Form} {src : List Char} {k e : Nat}
  {r r' : Reading}

private theorem take_index (h : Seeks o c f src k r) :
    c.text.toList.take r.cursor.index = c.before ++ f.opening.toList ++ src ++ List.replicate k '\n' := by
  rw [← h.before_eq, Cursor.before, h.text_eq]

private theorem length_src (h : Seeks o c f src k r) :
    (c.before ++ f.opening.toList ++ src).length = c.index + f.opening.length + src.length := by
  rw [List.length_append, h.shown.length_before_append]

private theorem index_eq (h : Seeks o c f src k r) : r.cursor.index = c.index + f.opening.length + src.length + k := by
  have hlen := congrArg List.length h.take_index
  have hle := h.within
  rw [List.length_append, h.length_src, List.length_take, Array.length_toList, List.length_replicate] at hlen
  omega

private theorem take_src (h : Seeks o c f src k r) :
    c.text.toList.take (c.index + f.opening.length + src.length) = c.before ++ f.opening.toList ++ src := by
  have hi := h.index_eq
  have ht := congrArg (List.take (c.index + f.opening.length + src.length)) h.take_index
  rw [List.take_take, Nat.min_eq_left (by omega), ← h.length_src, List.take_left] at ht
  rw [← h.length_src]
  exact ht

private theorem last_src (h : Seeks o c f src k r) : src.getLast? ≠ some '\n' := by
  intro hs
  apply h.last
  rw [List.getLast?_append, hs]
  rfl

/-- Between what was read and the cursor there are only newlines. -/
private theorem newline_of_le (h : Seeks o c f src k r) (hle : c.index + f.opening.length + src.length ≤ e)
    (hlt : e < r.cursor.index) : c.text.toList[e]? = some '\n' := by
  have hi := h.index_eq
  have hlen := h.length_src
  rw [← List.getElem?_take_of_lt hlt, h.take_index, List.getElem?_append_right (by omega), List.getElem?_replicate,
    if_pos]
  omega

private theorem current_ne (h : Seeks o c f src k r) : c.text.toList[r.cursor.index]? ≠ some '\n' := by
  rw [← h.text_eq, ← Cursor.current?_eq]
  exact h.rests.2

/-- The newlines behind what was read end at the cursor. -/
private theorem length_newlines (h : Seeks o c f src k r) :
    ((c.text.toList.drop (c.index + f.opening.length + src.length)).takeWhile (· = '\n')).length = k := by
  have hdrop : c.text.toList.drop (c.index + f.opening.length + src.length) =
      List.replicate k '\n' ++ c.text.toList.drop r.cursor.index := by
    have hsplit := List.take_append_drop r.cursor.index c.text.toList
    rw [h.take_index, List.append_assoc _ (List.replicate _ _)] at hsplit
    rw [← h.length_src]
    nth_rewrite 1 [← hsplit]
    exact List.drop_left
  have hrest : (c.text.toList.drop r.cursor.index).takeWhile (· = '\n') = [] := by
    cases hd : c.text.toList.drop r.cursor.index with
    | nil => rfl
    | cons x xs =>
      have hx : c.text.toList[r.cursor.index]? = some x := by
        rw [← List.head?_drop, hd]
        rfl
      rw [List.takeWhile_cons, if_neg]
      intro hxn
      exact h.current_ne (by rw [hx]; simpa using hxn)
  rw [hdrop, List.takeWhile_append_of_pos (by simp), hrest, List.append_nil, List.length_replicate]

private theorem squeeze_newlines (h : Seeks o c f src k r) :
    squeeze (src ++ List.replicate k '\n') = r.text.toList ++ if r.cursor.line = r.line then [] else ['\n'] := by
  rw [squeeze_append_replicate h.last_src, h.read]
  by_cases hk : k = 0
  · rw [if_pos hk, if_pos (h.line_eq_iff.2 hk)]
  · rw [if_neg hk, if_neg fun hl => hk (h.line_eq_iff.1 hl)]

/-- While the line is the one where the construct opened, no newline was crossed. -/
private theorem eq_zero_of_line (h : Seeks o c f src k r) (hs : c.Stamps o c.index) (hl : r.cursor.line = c.line) :
    k = 0 := by
  have hline : c.line.toNat = 1 + c.before.count '\n' := hs.1
  have h₁ := h.cursor_line
  have h₂ := h.line_eq
  rw [List.count_append, List.count_append] at h₂
  rw [hl] at h₁
  omega

/-- Where the end is asked for and denied, it is neither at the newlines crossed nor under the cursor. -/
private theorem open_of_asks (h : Seeks o c f src k r) (ha : f.Asks ends c n) (hs : c.Stamps o c.index)
    (hno : ends r.cursor n = .ok false n) (hle : c.index + f.opening.length + src.length ≤ e)
    (hlt : e ≤ r.cursor.index) : f.closesAt c.text.toList e = false := by
  cases ha with
  | delimiter ne_empty one_line asked =>
    rw [asked, h.text_eq] at hno
    injection hno with htest _
    rcases Nat.lt_or_eq_of_le hlt with hlt | rfl
    · exact Form.closesAt_of_newline ne_empty one_line (h.newline_of_le hle hlt)
    · exact htest
  | lineEnd opening asked =>
    rw [asked] at hno
    injection hno with hline _
    have hk := h.eq_zero_of_line hs (by simpa using hline)
    have hi := h.index_eq
    obtain rfl : e = r.cursor.index := by omega
    simpa [Form.closesAt] using h.current_ne

/-- Reading on keeps looking, if neither the newlines crossed nor the character read is the end. -/
private theorem turn (h : Seeks o c f src k r) (hc : c.Countable) (ht : Turn o ends r r')
    (hopen : ∀ e, c.index + f.opening.length + src.length ≤ e → e ≤ r.cursor.index →
      f.closesAt c.text.toList e = false) :
    ∃ src' k', Seeks o c f src' k' r' := by
  obtain ⟨ch, k', hch, hf⟩ := h.toFollows.turn hc ht
  obtain ⟨notes, ch', -, hch', rfl⟩ := ht
  rw [hch] at hch'
  injection hch' with hch'
  subst hch'
  have hne : ch ≠ '\n' := fun hn => h.rests.2 (by rw [hch, hn])
  refine ⟨_, k', hf, h.shown, ?_, ?_, ?_⟩
  · rw [← h.text_eq]
    exact Cursor.index_stepQuiet_le o (Cursor.lt_size_of_current hch)
  · have hhead : [ch].head? ≠ some '\n' := by simpa using hne
    rw [squeeze_append_of_head hhead, h.squeeze_newlines, squeeze_of_not_mem (by simpa using hne.symm),
      String.toList_push]
    split <;> simp
  · intro e hle hlt
    have hi := h.index_eq
    simp only [List.length_append, List.length_replicate, List.length_singleton] at hlt
    rcases Nat.lt_or_ge e (c.index + f.opening.length + src.length) with hsrc | hsrc
    · exact h.unmet e hle hsrc
    · exact hopen e hsrc (by omega)

/-! ### Where the reading stops -/

/-- A construct that the text cuts short takes the rest of the text. -/
private theorem extent_cut {j : Nat} (h : Seeks o c f src k r) (hne : f.closing ≠ "")
    (hopen : ∀ e, c.index + f.opening.length + src.length ≤ e → e ≤ r.cursor.index → f.closesAt c.text.toList e = false)
    (hend : c.text.size ≤ r.cursor.index) (hj : r.cursor.index ≤ j) :
    f.Extent c.text.toList c.index j (f.opening.toList ++ r.text.toList) := by
  have hsize := h.within
  have htext : c.text.toList = c.before ++ (f.opening.toList ++ src ++ List.replicate k '\n') := by
    have htake := h.take_index
    rw [List.take_of_length_le (by rw [Array.length_toList]; exact hend)] at htake
    rw [htake]
    simp
  have hlast : (f.opening.toList ++ src).getLast? ≠ some '\n' := by
    intro hn
    apply h.last
    rw [List.append_assoc, List.getLast?_append, hn]
    rfl
  have hchars : chomp (squeeze (c.text.toList.drop c.index)) = f.opening.toList ++ r.text.toList := by
    rw [htext, h.shown.drop_before_append, chomp_squeeze_append_newlines hlast,
      squeeze_append_of_not_mem h.shown.one_line, h.read]
  rw [← hchars]
  refine .cutShort ?_ ?_
  · intro e he
    rcases Nat.lt_or_ge e (c.index + f.opening.length + src.length) with hsrc | hsrc
    · exact h.unmet e he hsrc
    · by_contra hcl
      have hlt := Form.lt_length_of_closesAt hne (by simpa using hcl)
      rw [Array.length_toList] at hlt
      exact hcl (hopen e hsrc (by omega))
  · rw [Array.length_toList]
    omega

/-- A construct that ends at a closing delimiter ends at the first one. -/
private theorem extent_delimiter (h : Seeks o c f src k r) (hclose : r.cursor.Shows f.closing)
    (htest : f.closesAt c.text.toList r.cursor.index = true) :
    f.Extent c.text.toList c.index (r.cursor.index + f.closing.length)
      (f.opening.toList ++ (r.text.toList ++ if r.cursor.line = r.line then [] else ['\n']) ++ f.closing.toList) := by
  have hi := h.index_eq
  have hchars : squeeze ((c.text.toList.take (r.cursor.index + f.closing.length)).drop c.index) =
      f.opening.toList ++ (r.text.toList ++ if r.cursor.line = r.line then [] else ['\n']) ++ f.closing.toList := by
    have htake := hclose.take_add
    rw [h.text_eq] at htake
    have hhead : f.closing.toList.head? ≠ some '\n' := hclose.current?_eq ▸ hclose.current?_ne
    rw [htake, h.before_eq, List.append_assoc, List.append_assoc, List.append_assoc, h.shown.drop_before_append,
      ← List.append_assoc src, squeeze_append_of_not_mem h.shown.one_line, squeeze_append_of_head hhead,
      h.squeeze_newlines, squeeze_of_not_mem hclose.one_line]
    simp
  rw [← Form.resumesAt_of_one_line hclose.one_line c.text.toList, ← hchars]
  refine .ended ⟨⟨?_, htest⟩, ?_⟩
  · omega
  rintro e ⟨he, hcl⟩
  by_contra hlt
  rcases Nat.lt_or_ge e (c.index + f.opening.length + src.length) with hsrc | hsrc
  · rw [h.unmet e he hsrc] at hcl
    cases hcl
  · rw [Form.closesAt_of_newline hclose.ne_empty hclose.one_line (h.newline_of_le hsrc (by omega))] at hcl
    cases hcl

/-- A construct that ends with its line ends at the first newline, and the scan goes on behind the newlines there. -/
private theorem extent_line {opening : String} (h : Seeks o c (.line opening) src k r) (hk : k ≠ 0) :
    (Form.line opening).Extent c.text.toList c.index r.cursor.index (opening.toList ++ (r.text.toList ++ ['\n'])) := by
  have hi := h.index_eq
  have hnl := h.newline_of_le (Nat.le_refl _) (by omega)
  have hresume : r.cursor.index =
      (Form.line opening).resumesAt c.text.toList (c.index + (Form.line opening).opening.length + src.length) := by
    rw [Form.resumesAt, h.length_newlines, hi]
  have hchars : squeeze ((c.text.toList.take (c.index + (Form.line opening).opening.length + src.length +
      (Form.line opening).closing.length)).drop c.index) = opening.toList ++ (r.text.toList ++ ['\n']) := by
    have hone : (Form.line opening).closing.length = 1 := by
      rw [← String.length_toList, Form.toList_closing_line]
      rfl
    have htake : c.text.toList.take (c.index + (Form.line opening).opening.length + src.length + 1) =
        c.before ++ (opening.toList ++ (src ++ ['\n'])) := by
      rw [List.take_add_one, h.take_src, hnl]
      simp [Form.opening]
    have hline : '\n' ∉ opening.toList := h.shown.one_line
    rw [hone, htake, h.shown.drop_before_append, squeeze_append_of_not_mem hline, h.read]
    exact congrArg _ (squeeze_append_newlines h.last_src 0)
  rw [← hchars, hresume]
  refine .ended ⟨⟨Nat.le_add_right _ _, by simpa [Form.closesAt] using hnl⟩, ?_⟩
  rintro e ⟨he, hcl⟩
  by_contra hlt
  rw [h.unmet e he (by omega)] at hcl
  cases hcl

end Seeks

end Reading

/-! ### Constructs -/

namespace State

variable {o : Options} {ends : Predicate} {name : String} {body : Body} {leaf : Leaf} {s s₁ s₂ : State} {f : Form}

/-- The reading of a construct stops before its end is passed. -/
theorem seeks_body (hf : f.Opens ends s.cursor s.notes) (hc : s.cursor.Countable) (hr : s.cursor.Rests o)
    (hb : readBody o ends (s.inside o) s.cursor.line "" s.notes = .ok body s.notes) :
    ∃ src k n, Reading.Seeks o s.cursor f src k ⟨body.cursor, body.line, body.text, n⟩ := by
  have hopening : s.cursor.Shows s.notes.startMarker := hf.opening ▸ hf.shown
  obtain ⟨test, asked⟩ := hf.asks.exists_test
  obtain ⟨k, hstart⟩ := follows_inside hc hr hopening
  rw [hf.opening] at hstart
  have hseeks : Reading.Seeks o s.cursor f [] k ⟨s.inside o, s.cursor.line, "", s.notes⟩ := by
    refine ⟨hstart, hf.shown, hopening.index_inside_le o, rfl, ?_⟩
    intro e hle hlt
    simp only [List.length_nil] at hlt
    omega
  have keep : ∀ r r' : Reading, (r.notes = s.notes ∧ ∃ src k, Reading.Seeks o s.cursor f src k r) →
      Reading.Turn o ends r r' → r'.notes = s.notes ∧ ∃ src k, Reading.Seeks o s.cursor f src k r' := by
    rintro r r' ⟨hn, src, k, hS⟩ ht
    obtain ⟨notes, ch, he, -, hr'⟩ := id ht
    rw [hn] at he
    obtain rfl : notes = s.notes := by
      rw [asked] at he
      injection he with _ he
      exact he.symm
    refine ⟨by rw [hr'], hS.turn hc ht fun e hle hlt => ?_⟩
    exact hS.open_of_asks hf.asks hr.1 he hle hlt
  obtain ⟨n, ⟨-, src, k, hS⟩, -⟩ :=
    Reading.of_readBody keep (r := ⟨s.inside o, s.cursor.line, "", s.notes⟩) ⟨rfl, [], k, hseeks⟩ hb
  exact ⟨src, k, n, hS⟩

theorem index_le_settle (before : Cursor) (after : State) :
    after.cursor.index ≤ (settle before after).cursor.index := by
  obtain ⟨h, -⟩ | ⟨h, -⟩ := settle_cases before after <;> rw [h]
  exact Nat.le_succ _

theorem index_settle_of_moves {delimiter : String} (before : Cursor) (hn : s.notes.suppressed = false)
    (hclose : s.cursor.Shows delimiter) :
    (settle before (s.skipRest o delimiter.length)).cursor.index = s.cursor.index + delimiter.length := by
  rw [settle_of_moves _ (by rw [notes_skipRest, hn]), skipRest, if_neg (by simp [hn])]
  exact hclose.index_stepsQuiet o

theorem index_settle_of_stays {before : Cursor} (hn : s.notes.suppressed = true) (hi : s.cursor.index ≠ before.index)
    (length : Nat) : (settle before (s.skipRest o length)).cursor.index = s.cursor.index := by
  rw [skipRest_of_stays hn, settle_of_stays hn hi]

/-- A construct is read, and the cursor settles behind it, as its form says. -/
private theorem verbatim_extent (hf : f.Opens ends s.cursor s.notes) (hc : s.cursor.Countable) (hr : s.cursor.Rests o)
    (hv : s.verbatim o ends name = .ok leaf s₁) (hcur : s₂.cursor = s₁.cursor) (hnotes : s₂.notes = s₁.notes) :
    f.Extent s.cursor.text.toList s.cursor.index
      (settle s.cursor (s₂.skipRest o s₁.notes.endMarker.length)).cursor.index leaf.text.toList := by
  have hopening : s.cursor.Shows s.notes.startMarker := hf.opening ▸ hf.shown
  obtain ⟨test, asked⟩ := hf.asks.exists_test
  obtain ⟨body, -, -, -, hb, -, hindex, hcases⟩ := verbatim_read hc hr hopening asked hv
  obtain ⟨src, k, n, hS⟩ := seeks_body hf hc hr hb
  have htext : body.cursor.text = s.cursor.text := hS.text_eq
  rcases hcases with ⟨htest, hleaf, hs₁⟩ | ⟨htest, hend, hleaf, hs₁⟩
  · have hbody : s₂.cursor = body.cursor := by rw [hcur, hs₁]
    have hyes : ends body.cursor s.notes = .ok true s.notes := by rw [asked, htest]
    cases hf.asks with
    | delimiter ne_empty one_line asked =>
      rw [asked, htext] at hyes
      injection hyes with hcl _
      have hclose : body.cursor.Shows f.closing := by
        refine ⟨ne_empty, one_line, ?_⟩
        rw [htext]
        exact Form.isPrefixOf_of_closesAt hcl
      have hmoves : s₂.notes.suppressed = false := by
        rw [hnotes, hs₁, hf.closing, hclose.current?_eq]
        simpa using hf.moves
      have hmarker : s₁.notes.endMarker = f.closing := by
        rw [hs₁]
        simp only
        split <;> exact hf.closing
      have hchars : leaf.text.toList =
          f.opening.toList ++ (body.text.toList ++ if body.cursor.line = body.line then [] else ['\n']) ++
            f.closing.toList := by
        rw [hleaf, hf.opening, hf.closing, ← hclose.current?_eq]
        by_cases hl : body.cursor.line = body.line <;> simp [hl, hclose.current?_ne]
      rw [hchars, hmarker, index_settle_of_moves s.cursor hmoves (hbody ▸ hclose), hbody]
      exact Reading.Seeks.extent_delimiter (r := ⟨body.cursor, body.line, body.text, n⟩) hS hclose hcl
    | lineEnd opening asked =>
      -- the newlines after the comment have been crossed, and the cursor stays behind them
      have hstart : s.notes.startMarker = opening := hf.opening
      have hmarker : s.notes.endMarker = "\n" := hf.closing
      have hne : body.cursor.line ≠ body.line := by
        rw [asked] at hyes
        injection hyes with hl _
        rw [line_readBody asked hb]
        simpa using hl
      have hrest : body.cursor.current? ≠ some '\n' := hS.rests.2
      have hstays : s₂.notes.suppressed = true := by
        rw [hnotes, hs₁, hmarker]
        simp [hrest, Notes.suppress]
      have hchars : leaf.text.toList = opening.toList ++ (body.text.toList ++ ['\n']) := by
        rw [hleaf, hmarker, hstart]
        simp
      rw [hchars, index_settle_of_stays hstays (by rw [hbody]; exact Nat.ne_of_gt hindex), hbody]
      exact hS.extent_line fun hk => hne (hS.line_eq_iff.2 hk)
  · have hbody : s₂.cursor = body.cursor := by
      rw [hcur, hs₁]
      split <;> rfl
    have hno : ends body.cursor s.notes = .ok false s.notes := by rw [asked, htest]
    rw [hleaf, hf.opening, String.toList_append]
    refine hS.extent_cut hf.asks.closing_ne (fun e hle hlt => hS.open_of_asks hf.asks hr.1 hno hle hlt) ?_ ?_
    · rw [← htext]
      exact hend
    · show body.cursor.index ≤ _
      rw [← hbody]
      exact Nat.le_trans (reaches_skipRest s₂ o _).index (index_le_settle ..)

/-- A construct is read, its leaf kept if it is included, and the cursor settles, as its form says. -/
private theorem construct_extent {included : Bool} {s' : State} (hf : f.Opens ends s.cursor s.notes)
    (hc : s.cursor.Countable) (hr : s.cursor.Rests o) (h : s.construct o ends name included = .ok () s') :
    ∃ text : String, s'.events.toList = s.events.toList ++
        (if included then [⟨s.cursor.line, s.cursor.indent, .other, name, text⟩] else []).map .leaf ∧
      f.Extent s.cursor.text.toList s.cursor.index (settle s.cursor s').cursor.index text.toList := by
  obtain ⟨leaf, s₁, hv, rfl⟩ := construct_cases h
  obtain ⟨s₂, hs₂⟩ : ∃ s₂, s₂ = if included then { s₁ with events := s₁.events.push (.leaf leaf) } else s₁ := ⟨_, rfl⟩
  have hcur : s₂.cursor = s₁.cursor := by
    rw [hs₂]
    split <;> rfl
  have hnotes : s₂.notes = s₁.notes := by
    rw [hs₂]
    split <;> rfl
  refine ⟨leaf.text, ?_, ?_⟩
  · rw [events_kept hv, ← leaf_verbatim hv]
  · rw [← hs₂]
    exact verbatim_extent hf hc hr hv hcur hnotes

/-- The step that finds a construct passes it as its form says. -/
theorem step_extent {L : Language} {b : Boundary} {n : Notes} {s' : State} (hb : b.isConstruct = true)
    (found : L.dispatch s.cursor s.notes.fresh = .ok (some b) n) (hf : f.Opens (L.predicate b.closing) s.cursor n)
    (hc : s.cursor.Countable) (hs : s.cursor.Stamps o s.cursor.index) (hstep : s.step L o = .ok () s') :
    ∃ chars, s'.events.toList = s.events.toList ++
        (s.wordLeaves L ++ if b.included o then [s.constructLeaf b (String.ofList chars)] else []).map .leaf ∧
      f.Extent s.cursor.text.toList s.cursor.index s'.cursor.index chars := by
  obtain ⟨s₁, hs₁, rfl⟩ := boundary_of_step found hstep
  -- the construct is handled once the word has been flushed
  have hcur : (flush { s with notes := n } L).cursor = s.cursor := cursor_flush ..
  have hnotes : (flush { s with notes := n } L).notes = n := notes_flush ..
  rw [boundary_construct hb] at hs₁
  obtain ⟨text, hevents, hextent⟩ := construct_extent (by rw [hcur, hnotes]; exact hf) (by rw [hcur]; exact hc)
    (by rw [hcur]; exact ⟨hs, hf.shown.current?_ne⟩) hs₁
  rw [hcur] at hextent
  refine ⟨text.toList, ?_, hextent⟩
  rw [events_settle, hevents, events_flush, hcur, String.ofList_toList, List.map_append, List.append_assoc]
  rfl

end State

/-! ### The forms of the bundled languages -/

theorem Cursor.startsWith_eq (c : Cursor) (needle : String) :
    c.startsWith needle = needle.toList.isPrefixOf (c.text.toList.drop c.index) := by
  rw [Bool.eq_iff_iff, startsWith, startsAt_iff, List.isPrefixOf_iff_prefix]

private theorem backslashesBelow_eq {text : Array Char} {i : Nat} (h : i ≤ text.size) :
    backslashesBelow text i = ((text.toList.take i).rtakeWhile (· = '\\')).length := by
  induction i with
  | zero => simp [backslashesBelow]
  | succ i ih =>
    have hi : text[i]? = some text[i] := Array.getElem?_eq_getElem h
    have hi' : text.toList[i]? = some text[i] := by rw [Array.getElem?_toList, hi]
    rw [backslashesBelow, hi, List.take_add_one, hi', Option.toList_some, ih (by omega)]
    by_cases hb : text[i] = '\\'
    · rw [if_pos (by rw [hb]), List.rtakeWhile_concat_pos _ _ _ (by simpa using hb)]
      simp
    · rw [if_neg (by simpa using hb), List.rtakeWhile_concat_neg _ _ _ (by simpa using hb)]
      rfl

theorem Form.closesAt_quoted {quote : String} (hne : quote ≠ "") (c : Cursor) :
    (Form.quoted quote).closesAt c.text.toList c.index = (c.startsWith quote && c.backslashesBefore % 2 = 0) := by
  rw [closesAt, ← Cursor.startsWith_eq]
  by_cases h : c.startsWith quote = true
  · have hlt : c.index < c.text.toList.length := by
      by_contra hle
      rw [Cursor.startsWith_eq, List.drop_eq_nil_of_le (by omega), List.isPrefixOf_iff_prefix, List.prefix_nil] at h
      exact hne (String.toList_eq_nil_iff.1 h)
    rw [Array.length_toList] at hlt
    rw [Cursor.backslashesBefore, backslashesBelow_eq (Nat.le_of_lt hlt)]
  · rw [Bool.eq_false_iff.2 h, Bool.false_and, Bool.false_and]

theorem Form.at?_eq (forms : List Form) (c : Cursor) :
    Form.at? forms c.text.toList c.index = forms.find? fun f => c.startsWith f.opening := by
  simp only [at?, Cursor.startsWith_eq]

namespace Java

/-- How strings and comments are written, first the form that is tried first. -/
def forms : Boundary → List Form
  | .stringStart => [.quoted "\"", .quoted "'"]
  | .commentStart => [.line "//", .block "/*" "*/"]
  | .scopeStart | .scopeEnd => []

/-- A string or comment that is found has the first form that opens there. -/
theorem opens {c : Cursor} {n n' : Notes} {b : Boundary} (hb : b.isConstruct = true)
    (h : language.dispatch c n = .ok (some b) n') (hn : n.suppressed = false) :
    ∃ f, Form.at? (forms b) c.text.toList c.index = some f ∧ f.Opens (language.predicate b.closing) c n' := by
  rcases dispatch_cases c n with
    ⟨quote, hq, hc, hd⟩ | ⟨hc, hd⟩ | ⟨hc, hd⟩ | ⟨-, hd⟩ | ⟨-, hd⟩ | ⟨-, -, hd⟩
  all_goals
    rw [h] at hd
    cases hd
  · have hline : quote ≠ '\n' := by rcases hq with rfl | rfl <;> decide
    refine ⟨.quoted (String.singleton quote), ?_, rfl, rfl, Cursor.shows_singleton hc hline, hn, ?_⟩
    · have hdouble : c.startsWith "\"" = decide (c.current? = some '"') := Cursor.startsWith_singleton c '"'
      have hsingle : c.startsWith "'" = decide (c.current? = some '\'') := Cursor.startsWith_singleton c '\''
      rw [Form.at?_eq]
      rcases hq with rfl | rfl <;> simp [forms, Form.opening, hdouble, hsingle, hc]
    · refine .delimiter (by simp [Form.closing]) (by simpa [Form.closing] using hline.symm) fun d => ?_
      rw [Form.closesAt_quoted (by simp), Cursor.startsWith_singleton]
      simp [language, predicate, Boundary.closing, stringEnd, Notes.mark]
  · have hshow : c.Shows "//" := Cursor.shows_of_startsWith hc (by decide) (by decide)
    refine ⟨.line "//", ?_, rfl, rfl, hshow, hn, .lineEnd _ fun d => rfl⟩
    rw [Form.at?_eq]
    simp [forms, Form.opening, hc]
  · refine ⟨.block "/*" "*/", ?_, rfl, rfl, Cursor.shows_of_startsWith hc (by decide) (by decide), hn, ?_⟩
    · have hline : c.startsWith "//" = false := by
        have hstar : c.text[c.index]? = some '/' ∧ c.text[c.index + 1]? = some '*' := by
          simpa [Cursor.startsWith, startsAt] using hc
        simp [Cursor.startsWith, startsAt, hstar]
      rw [Form.at?_eq]
      simp [forms, Form.opening, hc, hline]
    · refine .delimiter (by decide) (by decide) fun d => ?_
      rw [Form.closesAt, ← Cursor.startsWith_eq]
      rfl
  · cases hb
  · cases hb

end Java

namespace Python

/-- How strings and comments are written, first the form that is tried first. -/
def forms : Boundary → List Form
  | .stringStart => quotes.map .quoted
  | .commentStart => [.line "#"]
  | .scopeStart | .scopeEnd => []

/-- A string or comment that is found has the first form that opens there. -/
theorem opens {c : Cursor} {n n' : Notes} {b : Boundary} (hb : b.isConstruct = true)
    (h : language.dispatch c n = .ok (some b) n') (hn : n.suppressed = false) :
    ∃ f, Form.at? (forms b) c.text.toList c.index = some f ∧ f.Opens (language.predicate b.closing) c n' := by
  rcases dispatch_cases c n with
    ⟨quote, hquote, -, hd⟩ | ⟨hc, hd⟩ | ⟨-, -, hd⟩ | ⟨frame, frames, -, -, hd⟩ | ⟨-, -, hd⟩
  all_goals
    rw [h] at hd
    cases hd
  · rw [openingQuote?_eq_find] at hquote
    have hmem := List.mem_of_find?_eq_some hquote
    have hc := List.find?_some hquote
    have hall : ∀ quote ∈ quotes, quote ≠ "" ∧ '\n' ∉ quote.toList := by decide
    obtain ⟨hne, hline⟩ := hall quote hmem
    refine ⟨.quoted quote, ?_, rfl, rfl, Cursor.shows_of_startsWith hc hne hline, hn, ?_⟩
    · rw [Form.at?_eq, forms, List.find?_map]
      exact congrArg (Option.map Form.quoted) hquote
    · refine .delimiter hne hline fun d => ?_
      rw [Form.closesAt_quoted hne]
      rfl
  · refine ⟨.line "#", ?_, rfl, rfl, Cursor.shows_singleton hc (by decide), hn, .lineEnd _ fun d => rfl⟩
    have hhash : c.startsWith "#" = decide (c.current? = some '#') := Cursor.startsWith_singleton c '#'
    rw [Form.at?_eq]
    simp [forms, Form.opening, hhash, hc]
  · cases hb
  · cases hb

end Python

/-- The languages with strings and comments, with the forms of these. -/
def Bundled.grammars : List (Language × (Boundary → List Form)) :=
  [(Java.language, Java.forms), (Python.language, Python.forms)]

theorem Bundled.opens {L : Language} {forms : Boundary → List Form} (hL : (L, forms) ∈ grammars) {c : Cursor}
    {n n' : Notes} {b : Boundary} (hb : b.isConstruct = true) (h : L.dispatch c n = .ok (some b) n')
    (hn : n.suppressed = false) :
    ∃ f, Form.at? (forms b) c.text.toList c.index = some f ∧ f.Opens (L.predicate b.closing) c n' := by
  simp only [grammars, List.mem_cons, List.not_mem_nil, or_false, Prod.mk.injEq] at hL
  rcases hL with ⟨rfl, rfl⟩ | ⟨rfl, rfl⟩
  · exact Java.opens hb h hn
  · exact Python.opens hb h hn

theorem Bundled.mem_languages_of_grammars {L : Language} {forms : Boundary → List Form}
    (hL : (L, forms) ∈ grammars) : L ∈ languages := by
  simp only [grammars, List.mem_cons, List.not_mem_nil, or_false, Prod.mk.injEq] at hL
  rcases hL with ⟨rfl, rfl⟩ | ⟨rfl, rfl⟩ <;> simp [languages]

open State in
/-- Strings and comments end where their grammar says.  Whenever the loop finds one, it has the first form that opens
there; the step passes it whole, and its leaf, kept if such leaves are included, comes after the gathered word and holds
what was passed. -/
theorem construct_ends_at_grammar {L : Language} {forms : Boundary → List Form} {o : Options} {text : String}
    {heads : List State} {u : State} {b : Boundary} {n : Notes} (hL : (L, forms) ∈ Bundled.grammars)
    (hlen : text.length < UInt32.size - 1) (hr : Runs L o (start text) heads u) (hb : b.isConstruct = true)
    (found : L.dispatch u.cursor u.notes.fresh = .ok (some b) n) :
    ∃ f u' chars, Form.at? (forms b) text.toList u.cursor.index = some f ∧
      u.step L o = .ok () u' ∧
      u'.events.toList = u.events.toList ++
        (u.wordLeaves L ++ if b.included o then [u.constructLeaf b (String.ofList chars)] else []).map .leaf ∧
      f.Extent text.toList u.cursor.index u'.cursor.index chars := by
  have hmem := Bundled.mem_languages_of_grammars hL
  obtain ⟨hE, ht, -⟩ := hr.exact_of_start (Or.inl hmem) hlen
  obtain ⟨f, hat, hf⟩ := Bundled.opens hL hb found rfl
  obtain ⟨u', -, -, hstep, -⟩ := (hr.honest hmem).2.step_ok o
  obtain ⟨chars, hevents, hextent⟩ := step_extent hb found hf (Cursor.countable_of_toList ht hlen) hE.stamps hstep
  rw [ht] at hat hextent
  exact ⟨f, u', chars, hat, hstep, hevents, hextent⟩

open State in
theorem construct_ends_at_grammar_triple :
    ∃ u' chars, (start "'''a\\'''\n\n'''b").step Python.language {} = .ok () u' ∧
      (Form.quoted "'''").Extent "'''a\\'''\n\n'''b".toList 0 u'.cursor.index chars := by
  have hL : (Python.language, Python.forms) ∈ Bundled.grammars := by simp [Bundled.grammars]
  obtain ⟨f, u', chars, hat, hstep, -, hextent⟩ := construct_ends_at_grammar (o := {}) (b := .stringStart) hL
    (by decide) (.done (start "'''a\\'''\n\n'''b")) rfl rfl
  have htriple : Form.at? (Python.forms .stringStart) "'''a\\'''\n\n'''b".toList 0 = some (.quoted "'''") := by decide
  obtain rfl : f = .quoted "'''" := Option.some.inj (hat.symm.trans htriple)
  exact ⟨u', chars, hstep, hextent⟩

end LexTree
