import LexTree.Scan.State

/-!
# Lines and indents, read off the text

The line of an index is one more than the number of newlines before it; its indent is the measure of the blanks that
follow the last of these newlines.  A cursor stamps an index if its line and indent are the ones so defined.  The key
facts: the index after the cursor stays stamped through quiet steps (`rests_stepQuiet`), which come to rest on a
character that is no newline, and through the crossing of newlines (`stamps_newline`).
-/

namespace LexTree

/-! ### Recomputation -/

/-- The line of the character at an index, from 1. -/
def lineAt (cs : List Char) (i : Nat) : Nat := 1 + (cs.take i).count '\n'

/-- The last newline before an index. -/
def lastNewline? (cs : List Char) : Nat → Option Nat
  | 0 => none
  | i + 1 => if cs[i]? = some '\n' then some i else lastNewline? cs i

/-- The indent of the line of an index: the measure of the blanks after the last newline, none on the first line. -/
def indentAt (o : Options) (cs : List Char) (i : Nat) : UInt32 :=
  match lastNewline? cs i with
  | some j => o.measureIndent ((cs.drop (j + 1)).takeWhile isBlank)
  | none => 0

/-- The line and indent of a frame are those of an index. -/
def Frame.IsAt (o : Options) (cs : List Char) (i : Nat) (f : Frame) : Prop :=
  f.line.toNat = lineAt cs i ∧ f.indent = indentAt o cs i

theorem lineAt_le (cs : List Char) (i : Nat) : lineAt cs i ≤ 1 + cs.length := by
  have h₁ : (cs.take i).count '\n' ≤ (cs.take i).length := List.count_le_length
  have h₂ : (cs.take i).length ≤ cs.length := List.length_take_le' i cs
  unfold lineAt
  omega

theorem lineAt_mono (cs : List Char) {i j : Nat} (h : i ≤ j) : lineAt cs i ≤ lineAt cs j := by
  have hsub : (cs.take i).Sublist (cs.take j) := (List.take_prefix_take_left h).sublist
  have hcount := hsub.count_le '\n'
  unfold lineAt
  omega

theorem lineAt_succ_of_newline {cs : List Char} {i : Nat} (h : cs[i]? = some '\n') :
    lineAt cs (i + 1) = lineAt cs i + 1 := by
  simp only [lineAt, List.take_add_one, h, List.count_append]
  simp [Nat.add_assoc]

private theorem lineAt_succ_of_ne {cs : List Char} {i : Nat} (h : cs[i]? ≠ some '\n') :
    lineAt cs (i + 1) = lineAt cs i := by
  simp only [lineAt, List.take_add_one, List.count_append]
  cases hc : cs[i]? with
  | none => simp
  | some c =>
    have hne : c ≠ '\n' := fun h' => h (by rw [hc, h'])
    simp [hne]

theorem indentAt_succ_of_newline {o : Options} {cs : List Char} {i : Nat} (h : cs[i]? = some '\n') :
    indentAt o cs (i + 1) = o.measureIndent ((cs.drop (i + 1)).takeWhile isBlank) := by
  simp [indentAt, lastNewline?, h]

private theorem indentAt_succ_of_ne {o : Options} {cs : List Char} {i : Nat} (h : cs[i]? ≠ some '\n') :
    indentAt o cs (i + 1) = indentAt o cs i := by
  simp [indentAt, lastNewline?, h]

theorem position_eq_of_no_newline (o : Options) (cs : List Char) (i n : Nat)
    (h : ∀ k, i ≤ k → k < i + n → cs[k]? ≠ some '\n') :
    lineAt cs (i + n) = lineAt cs i ∧ indentAt o cs (i + n) = indentAt o cs i := by
  induction n with
  | zero => exact ⟨rfl, rfl⟩
  | succ n ih =>
    obtain ⟨hl, hi⟩ := ih fun k hk hk' => h k hk (by omega)
    have hn : cs[i + n]? ≠ some '\n' := h (i + n) (by omega) (by omega)
    rw [← Nat.add_assoc, lineAt_succ_of_ne hn, indentAt_succ_of_ne hn]
    exact ⟨hl, hi⟩

/-! ### Runs of blanks -/

theorem drop_eq_cons {text : Array Char} {i : Nat} {c : Char} (h : text[i]? = some c) :
    text.toList.drop i = c :: text.toList.drop (i + 1) := by
  obtain ⟨hi, rfl⟩ := Array.getElem?_eq_some_iff.1 h
  rw [List.drop_eq_getElem_cons (by simpa using hi), Array.getElem_toList]

theorem isBlank_newline : isBlank '\n' = false := by decide

theorem le_blankRunEnd (text : Array Char) (i : Nat) : i ≤ blankRunEnd text i := by
  fun_induction blankRunEnd text i with
  | case1 i h hb ih => omega
  | case2 i h hb => exact Nat.le_refl i
  | case3 i h => exact Nat.le_refl i

theorem blankRunEnd_le (text : Array Char) (i : Nat) : blankRunEnd text i ≤ max i text.size := by
  fun_induction blankRunEnd text i with
  | case1 i h hb ih => omega
  | case2 i h hb => omega
  | case3 i h => omega

theorem not_blank_of_blankRunEnd {text : Array Char} {i : Nat} {ch : Char} (h : text[blankRunEnd text i]? = some ch) :
    isBlank ch = false := by
  fun_induction blankRunEnd text i with
  | case1 i hi hb ih => exact ih h
  | case2 i hi hb =>
    rw [Array.getElem?_eq_getElem hi, Option.some.injEq] at h
    rw [← h]
    simpa using hb
  | case3 i hi => exact absurd (Array.getElem?_eq_some_iff.1 h).1 hi

theorem getElem?_blankRunEnd (text : Array Char) (i : Nat) :
    text[blankRunEnd text i]? = ((text.toList.drop i).dropWhile isBlank).head? := by
  fun_induction blankRunEnd text i with
  | case1 i hi hb ih =>
    rw [drop_eq_cons (Array.getElem?_eq_getElem hi), List.dropWhile_cons_of_pos hb]
    exact ih
  | case2 i hi hb =>
    rw [drop_eq_cons (Array.getElem?_eq_getElem hi), List.dropWhile_cons_of_neg hb, List.head?_cons,
      Array.getElem?_eq_getElem hi]
  | case3 i hi =>
    rw [List.drop_eq_nil_of_le (by simpa using hi), Array.getElem?_eq_none (by omega)]
    rfl

theorem blank_of_lt_blankRunEnd {text : Array Char} {i k : Nat} (hik : i ≤ k) (hk : k < blankRunEnd text i) :
    ∃ ch, text[k]? = some ch ∧ isBlank ch = true := by
  fun_induction blankRunEnd text i with
  | case1 i hi hb ih =>
    rcases Nat.eq_or_lt_of_le hik with rfl | hlt
    · exact ⟨_, Array.getElem?_eq_getElem hi, hb⟩
    · exact ih hlt hk
  | case2 i hi hb => omega
  | case3 i hi => omega

private theorem take_blankRunEnd (text : Array Char) (i : Nat) :
    (text.toList.drop i).take (blankRunEnd text i - i) = (text.toList.drop i).takeWhile isBlank := by
  fun_induction blankRunEnd text i with
  | case1 i h hb ih =>
    have hle := le_blankRunEnd text (i + 1)
    rw [drop_eq_cons (Array.getElem?_eq_getElem h), List.takeWhile_cons, if_pos hb, ← ih,
      show blankRunEnd text (i + 1) - i = blankRunEnd text (i + 1) - (i + 1) + 1 by omega, List.take_succ_cons]
  | case2 i h hb =>
    rw [drop_eq_cons (Array.getElem?_eq_getElem h), List.takeWhile_cons, if_neg hb, Nat.sub_self, List.take_zero]
  | case3 i h =>
    rw [List.drop_eq_nil_of_le (by simpa using h), Nat.sub_self]
    rfl

namespace Cursor

/-- The run of blanks at an index is the longest one. -/
theorem blankRun_eq (c : Cursor) (i : Nat) : c.blankRun i = (c.text.toList.drop i).takeWhile isBlank := by
  rw [← take_blankRunEnd, blankRun, Array.toList_extract, List.extract_eq_take_drop]

theorem add_length_blankRun (c : Cursor) (i : Nat) : i + (c.blankRun i).length = blankRunEnd c.text i := by
  have h₁ := le_blankRunEnd c.text i
  have h₂ := blankRunEnd_le c.text i
  rw [blankRun, Array.length_toList, Array.size_extract]
  omega

theorem not_isEmpty_blankRun (c : Cursor) (i : Nat) :
    (!(c.blankRun i).isEmpty) = decide (i < blankRunEnd c.text i) := by
  rw [← add_length_blankRun]
  cases c.blankRun i <;> simp

theorem blankRun_isPrefix (c : Cursor) (i : Nat) : c.blankRun i <+: c.text.toList.drop i := by
  rw [blankRun_eq]
  exact List.takeWhile_prefix _

theorem isBlank_of_mem_blankRun {c : Cursor} {i : Nat} {ch : Char} (h : ch ∈ c.blankRun i) : isBlank ch = true := by
  rw [blankRun_eq] at h
  exact List.all_eq_true.1 List.all_takeWhile ch h

private theorem no_newline_in_blankRun (c : Cursor) {i k : Nat} (hi : i ≤ k) (hk : k < i + (c.blankRun i).length) :
    c.text.toList[k]? ≠ some '\n' := by
  have hlt : k - i < (c.blankRun i).length := by omega
  have hget := (blankRun_isPrefix c i).getElem hlt
  intro h
  rw [show k = i + (k - i) by omega, ← List.getElem?_drop, List.getElem?_eq_some_iff] at h
  obtain ⟨_, h⟩ := h
  have hb := isBlank_of_mem_blankRun (List.getElem_mem hlt)
  rw [hget, h, isBlank_newline] at hb
  cases hb

/-! ### Stamps -/

def frame (c : Cursor) : Frame := ⟨c.line, c.indent⟩

/-- The line and indent of the cursor are those of an index. -/
def Stamps (o : Options) (c : Cursor) (i : Nat) : Prop := c.frame.IsAt o c.text.toList i

/-- The cursor stands on a character that is no newline, or past the text, and stamps its own index. -/
def Rests (o : Options) (c : Cursor) : Prop := c.Stamps o c.index ∧ c.current? ≠ some '\n'

/-- The text is short enough for its lines to be counted. -/
def Countable (c : Cursor) : Prop := c.text.size < UInt32.size - 1

variable {o : Options} {c d : Cursor}

theorem countable_of_toList {text : String} (ht : c.text.toList = text.toList) (hlen : text.length < UInt32.size - 1) :
    c.Countable := by
  rw [Countable, ← Array.length_toList, ht, String.length_toList]
  exact hlen

theorem current?_eq (c : Cursor) : c.current? = c.text.toList[c.index]? := by
  rw [current?, Array.getElem?_toList]

theorem Stamps.of_eq {i : Nat} (h : c.Stamps o i) (ht : d.text = c.text) (hl : d.line = c.line)
    (hi : d.indent = c.indent) : d.Stamps o i := by
  unfold Stamps frame
  rw [ht, hl, hi]
  exact h

theorem Stamps.succ_of_ne {i : Nat} (h : c.Stamps o i) (hi : c.text.toList[i]? ≠ some '\n') : c.Stamps o (i + 1) :=
  ⟨h.1.trans (lineAt_succ_of_ne hi).symm, h.2.trans (indentAt_succ_of_ne hi).symm⟩

private theorem Stamps.of_succ_of_ne {i : Nat} (h : c.Stamps o (i + 1)) (hi : c.text.toList[i]? ≠ some '\n') :
    c.Stamps o i :=
  ⟨h.1.trans (lineAt_succ_of_ne hi), h.2.trans (indentAt_succ_of_ne hi)⟩

theorem Rests.stamps_succ (h : c.Rests o) : c.Stamps o (c.index + 1) :=
  h.1.succ_of_ne (current?_eq c ▸ h.2)

/-- Counting a newline at an index and measuring the blanks after it stamps the next index. -/
theorem Stamps.newline {i : Nat} (h : c.Stamps o i) (hc : c.Countable) (hi : c.text.toList[i]? = some '\n')
    (ht : d.text = c.text) (hl : d.line = c.line + 1) (hd : d.indent = o.measureIndent (c.blankRun (i + 1))) :
    d.Stamps o (i + 1) := by
  unfold Stamps frame Frame.IsAt
  rw [ht, hl, hd, blankRun_eq, lineAt_succ_of_newline hi, indentAt_succ_of_newline hi]
  refine ⟨?_, rfl⟩
  have hle := lineAt_le c.text.toList (i + 1)
  have hlt : c.text.size < 4294967296 - 1 := hc
  rw [Array.length_toList, lineAt_succ_of_newline hi] at hle
  have hline : c.line.toNat = lineAt c.text.toList i := h.1
  rw [UInt32.toNat_add, hline, UInt32.toNat_one, Nat.mod_eq_of_lt (by omega)]

/-! ### Quiet steps -/

private theorem stamps_advance (hc : c.Countable) (h : c.Stamps o (c.index + 1)) :
    (c.advance o).Stamps o (c.index + 2) := by
  simp only [advance]
  split
  · rename_i hn
    exact h.newline hc (by simpa [current?] using hn) rfl rfl rfl
  · rename_i hn
    exact (h.of_eq rfl rfl rfl).succ_of_ne (by simpa [current?] using hn)

theorem rests_stepQuiet (hc : c.Countable) (h : c.Stamps o (c.index + 1)) : (c.stepQuiet o).Rests o := by
  fun_induction stepQuiet o c with
  | case1 c next hn ih =>
    refine ih ?_ ?_
    · rw [Countable, text_advance]
      exact hc
    · rw [index_advance]
      exact stamps_advance hc h
  | case2 c next hn =>
    have hs := stamps_advance hc h
    refine ⟨?_, hn⟩
    rw [index_advance]
    apply hs.of_succ_of_ne
    rw [current?_eq, index_advance] at hn
    exact hn

theorem rests_stepsQuiet (hc : c.Countable) (h : c.Rests o) (n : Nat) : (stepsQuiet o n c).Rests o := by
  induction n generalizing c with
  | zero => exact h
  | succ n ih =>
    refine ih ?_ (rests_stepQuiet hc h.stamps_succ)
    rw [Countable, (reaches_stepQuiet o c).text]
    exact hc

end Cursor

/-! ### Crossing newlines -/

namespace State

open Cursor

variable {o : Options} {s : State}

theorem cursor_crossNewline (s : State) (o : Options) :
    (s.crossNewline o).cursor =
      { s.cursor with
        line := s.cursor.line + 1
        indent := o.measureIndent (s.cursor.blankRun (s.cursor.index + 1))
        index := s.cursor.index + (s.cursor.blankRun (s.cursor.index + 1)).length } := by
  simp only [crossNewline]
  split <;> split <;> rfl

@[simp] theorem text_crossNewline (s : State) (o : Options) : (s.crossNewline o).cursor.text = s.cursor.text :=
  (reaches_crossNewline s o).text

theorem index_crossNewline (s : State) (o : Options) :
    (s.crossNewline o).cursor.index + 1 = blankRunEnd s.cursor.text (s.cursor.index + 1) := by
  rw [cursor_crossNewline, ← Cursor.add_length_blankRun]
  simp only
  omega

theorem stamps_crossNewline (hc : s.cursor.Countable) (h : s.cursor.Stamps o s.cursor.index)
    (hn : s.cursor.current? = some '\n') :
    (s.crossNewline o).cursor.Stamps o ((s.crossNewline o).cursor.index + 1) := by
  rw [cursor_crossNewline]
  have h₁ : Stamps o { s.cursor with
      line := s.cursor.line + 1
      indent := o.measureIndent (s.cursor.blankRun (s.cursor.index + 1))
      index := s.cursor.index + (s.cursor.blankRun (s.cursor.index + 1)).length } (s.cursor.index + 1) :=
    h.newline hc (current?_eq s.cursor ▸ hn) rfl rfl rfl
  -- the blanks of the new line hold no newline, so its stamp is good up to their end
  obtain ⟨hl, hi⟩ := position_eq_of_no_newline o s.cursor.text.toList (s.cursor.index + 1)
    (s.cursor.blankRun (s.cursor.index + 1)).length fun k hk hk' => no_newline_in_blankRun s.cursor hk hk'
  simp only [Stamps, Frame.IsAt, Nat.add_right_comm _ _ 1]
  rw [hl, hi]
  exact h₁

theorem stamps_newline (hc : s.cursor.Countable) (h : s.cursor.Stamps o s.cursor.index)
    (hn : s.cursor.current? = some '\n') : (s.newline o).cursor.Stamps o ((s.newline o).cursor.index + 1) := by
  fun_induction newline s o with
  | case1 s next hp ih =>
    refine ih ?_ ?_ hp
    · show next.cursor.text.size < _
      rw [(reaches_crossNewline s o).text]
      exact hc
    · exact (stamps_crossNewline hc h hn).of_eq rfl rfl rfl
  | case2 s next hp => exact stamps_crossNewline hc h hn

end State

end LexTree
