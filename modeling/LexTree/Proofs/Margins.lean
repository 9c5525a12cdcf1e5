import LexTree.Proofs.Extent
import Mathlib.Data.List.Find

/-!
# A text inside a longer one

A text may be scanned on its own or as part of a longer one, between the characters before it and those behind it.  If
the margins fit, that is if what stands before ends with a newline and what follows begins with content after one, then
nothing that is read around a cursor depends on them: `Cursor.within` moves a cursor to its place in the longer text,
and looking ahead, looking back, measuring indents and quiet steps all commute with it, as long as the cursor has not
left the inner text or nothing stands behind it (`Margins.Sees`).
-/

namespace LexTree

/-- What stands before and behind a text in a longer one. -/
structure Margins where
  before : List Char
  behind : List Char

namespace Margins

/-- The longer text. -/
def around (w : Margins) (text : Array Char) : Array Char := (w.before ++ text.toList ++ w.behind).toArray

/-- How far the indices of the inner text are moved. -/
def offset (w : Margins) : Nat := w.before.length

/-- How far the lines of the inner text are moved. -/
def lines (w : Margins) : UInt32 := UInt32.ofNat (w.before.count '\n')

/-- A character that begins the content of a line. -/
def IsContent (ch : Char) : Prop := isBlank ch = false ∧ ch ≠ '\n'

/-- The inner text is made of whole lines, and content follows it. -/
structure Fits (w : Margins) (text : Array Char) : Prop where
  before : w.before = [] ∨ w.before.getLast? = some '\n'
  behind : w.behind = [] ∨ text.toList.getLast? = some '\n' ∧ ∃ ch, w.behind.head? = some ch ∧ IsContent ch

/-- An index of the inner text, or of any place if nothing stands behind it. -/
def Sees (w : Margins) (text : Array Char) (i : Nat) : Prop := i < text.size ∨ w.behind = []

/-- An index of the inner text or its end, or of any place if nothing stands behind it. -/
def Spans (w : Margins) (text : Array Char) (i : Nat) : Prop := i ≤ text.size ∨ w.behind = []

variable {w : Margins} {text : Array Char} {i j : Nat}

private theorem Sees.spans (h : w.Sees text i) : w.Spans text i := h.imp_left Nat.le_of_lt

theorem Sees.spans_succ (h : w.Sees text i) : w.Spans text (i + 1) := h.imp_left id

theorem Spans.mono (h : w.Spans text j) (hij : i ≤ j) : w.Spans text i := h.imp_left (Nat.le_trans hij)

private theorem Spans.sees_of_lt (h : w.Spans text j) (hij : i < j) :
    w.Sees text i := h.imp_left (Nat.lt_of_lt_of_le hij)

theorem size_around (w : Margins) (text : Array Char) :
    (w.around text).size = w.offset + text.size + w.behind.length := by
  simp [around, offset, Nat.add_assoc]

private theorem getElem?_around_add (w : Margins) (text : Array Char) (i : Nat) :
    (w.around text)[i + w.offset]? = (text.toList ++ w.behind)[i]? := by
  have hle : w.before.length ≤ i + w.offset := Nat.le_add_left ..
  rw [around, List.getElem?_toArray, List.append_assoc, List.getElem?_append_right hle, offset, Nat.add_sub_cancel]

private theorem getElem?_around (h : w.Sees text i) : (w.around text)[i + w.offset]? = text[i]? := by
  rw [getElem?_around_add, ← Array.getElem?_toList]
  rcases h with hlt | hnil
  · exact List.getElem?_append_left (by simpa using hlt)
  · rw [hnil, List.append_nil]

/-- Past the inner text stands content, or nothing. -/
private theorem Fits.isContent_of_behind (h : w.Fits text) {ch : Char}
    (hch : (w.around text)[text.size + w.offset]? = some ch) : IsContent ch := by
  rw [getElem?_around_add, List.getElem?_append_right (by simp), Array.length_toList, Nat.sub_self,
    ← List.head?_eq_getElem?] at hch
  rcases h.behind with hnil | ⟨-, ch', hch', hcontent⟩
  · rw [hnil] at hch
    cases hch
  · rw [hch'] at hch
    cases hch
    exact hcontent

theorem Fits.newline_around (h : w.Fits text) (hi : w.Spans text i) :
    (w.around text)[i + w.offset]? = some '\n' ↔ text[i]? = some '\n' := by
  by_cases hs : w.Sees text i
  · rw [getElem?_around hs]
  · -- at the end of the inner text there is no newline on either side
    obtain ⟨hlt, hne⟩ := not_or.1 hs
    obtain rfl : i = text.size := by
      have := hi.resolve_right hne
      omega
    constructor
    · intro hn
      exact absurd rfl (h.isContent_of_behind hn).2
    · intro hn
      simp at hn

private theorem Fits.last_newline (h : w.Fits text) (hne : w.behind ≠ []) :
    0 < text.size ∧ text[text.size - 1]? = some '\n' := by
  obtain ⟨hlast, -⟩ := h.behind.resolve_left hne
  rw [List.getLast?_eq_getElem?, Array.length_toList, Array.getElem?_toList] at hlast
  have hlt := (Array.getElem?_eq_some_iff.1 hlast).1
  exact ⟨by omega, hlast⟩

/-! ### Looking ahead -/

private theorem Fits.blankRunEnd_around (h : w.Fits text) (hi : w.Spans text i) :
    blankRunEnd (w.around text) (i + w.offset) = blankRunEnd text i + w.offset := by
  have hsize := size_around w text
  fun_induction blankRunEnd text i with
  | case1 i hlt hb ih =>
    have hget : (w.around text)[i + w.offset]? = text[i]? := getElem?_around (Or.inl hlt)
    rw [Array.getElem?_eq_getElem hlt] at hget
    obtain ⟨hlt', hch⟩ := Array.getElem?_eq_some_iff.1 hget
    rw [blankRunEnd, dif_pos hlt', hch, if_pos hb, Nat.add_right_comm]
    exact ih (Or.inl hlt)
  | case2 i hlt hb =>
    have hget : (w.around text)[i + w.offset]? = text[i]? := getElem?_around (Or.inl hlt)
    rw [Array.getElem?_eq_getElem hlt] at hget
    obtain ⟨hlt', hch⟩ := Array.getElem?_eq_some_iff.1 hget
    rw [blankRunEnd, dif_pos hlt', hch, if_neg hb]
  | case3 i hge =>
    rw [blankRunEnd]
    split
    · rename_i hlt'
      have hne : w.behind ≠ [] := by
        intro hnil
        rw [hsize, hnil, List.length_nil] at hlt'
        omega
      obtain rfl : i = text.size := by
        have := hi.resolve_right hne
        omega
      have hcontent := h.isContent_of_behind (Array.getElem?_eq_getElem hlt')
      rw [if_neg (by simp [hcontent.1])]
    · rfl

/-- A run of blanks that starts inside the inner text ends inside it. -/
private theorem Fits.sees_blankRunEnd (h : w.Fits text) (hi : w.Sees text i) : w.Sees text (blankRunEnd text i) := by
  by_cases hnil : w.behind = []
  · exact Or.inr hnil
  · have hlt := hi.resolve_right hnil
    obtain ⟨-, hlast⟩ := h.last_newline hnil
    refine Or.inl ?_
    by_contra hge
    have hblank : text.size - 1 < blankRunEnd text i := by omega
    obtain ⟨ch, hch, hb⟩ := blank_of_lt_blankRunEnd (by omega) hblank
    rw [hlast] at hch
    cases hch
    exact absurd hb (by decide)

/-- The inner text does not end behind a character that is no newline, unless nothing follows it. -/
theorem Fits.sees_succ (h : w.Fits text) {ch : Char} (hget : text[i]? = some ch) (hch : ch ≠ '\n') :
    w.Sees text (i + 1) := by
  by_cases hnil : w.behind = []
  · exact Or.inr hnil
  · obtain ⟨-, hlast⟩ := h.last_newline hnil
    have hlt := (Array.getElem?_eq_some_iff.1 hget).1
    refine Or.inl ?_
    by_contra hge
    rw [show i = text.size - 1 by omega, hlast] at hget
    exact hch (Option.some.inj hget).symm

private theorem Fits.startsAt_around (h : w.Fits text) (hi : w.Sees text i) {cs : List Char} (hcs : '\n' ∉ cs) :
    startsAt (w.around text) (i + w.offset) cs = startsAt text i cs := by
  induction cs generalizing i with
  | nil => rfl
  | cons c cs ih =>
    obtain ⟨hc, hcs⟩ := List.ne_and_not_mem_of_not_mem_cons hcs
    rw [startsAt, startsAt, getElem?_around hi, Nat.add_right_comm]
    by_cases hget : text[i]? = some c
    · rw [ih (h.sees_succ hget hc.symm) hcs]
    · simp [hget]

/-! ### Looking back -/

private theorem Fits.backslashesBelow_around (h : w.Fits text) (hi : w.Spans text i) :
    backslashesBelow (w.around text) (i + w.offset) = backslashesBelow text i := by
  induction i with
  | zero =>
    rw [Nat.zero_add, backslashesBelow]
    rcases h.before with hnil | hlast
    · rw [offset, hnil]
      rfl
    · -- the character before the inner text is a newline
      rw [List.getLast?_eq_getElem?] at hlast
      have hpos := (List.getElem?_eq_some_iff.1 hlast).1
      have hget : (w.around text)[w.before.length - 1]? = some '\n' := by
        rw [around, List.getElem?_toArray, List.append_assoc, List.getElem?_append_left hpos, hlast]
      rw [offset, show w.before.length = w.before.length - 1 + 1 by omega, backslashesBelow, hget]
      rfl
  | succ i ih =>
    rw [Nat.add_right_comm, backslashesBelow, backslashesBelow, getElem?_around (hi.sees_of_lt (Nat.lt_succ_self i)),
      ih (hi.mono (Nat.le_succ i))]

/-! ### Two texts -/

/-- The margins of a text that another one follows. -/
def followedBy (B : String) : Margins := ⟨[], B.toList⟩

/-- The margins of a text that follows another one. -/
def following (A : String) : Margins := ⟨A.toList, []⟩

theorem fits_followedBy {A B : String} (hA : A.toList.getLast? = some '\n') {ch : Char} (hB : B.toList.head? = some ch)
    (hch : IsContent ch) : (followedBy B).Fits A.toList.toArray :=
  ⟨Or.inl rfl, Or.inr ⟨hA, ch, hB, hch⟩⟩

theorem fits_following {A : String} (hA : A.toList.getLast? = some '\n') (text : Array Char) :
    (following A).Fits text :=
  ⟨Or.inr hA, Or.inl rfl⟩

/-- Both ways of placing the two texts give the whole. -/
theorem around_followedBy (A B : String) : (followedBy B).around A.toList.toArray = (A ++ B).toList.toArray := by
  simp [around, followedBy]

theorem around_following (A B : String) : (following A).around B.toList.toArray = (A ++ B).toList.toArray := by
  simp [around, following]

end Margins

/-! ### Cursors -/

namespace Cursor

/-- The cursor at its place in the longer text. -/
def within (w : Margins) (c : Cursor) : Cursor :=
  { c with text := w.around c.text, index := c.index + w.offset, line := c.line + w.lines }

variable {w : Margins} {o : Options} {c : Cursor}

theorem current?_within (h : w.Sees c.text c.index) : (c.within w).current? = c.current? :=
  Margins.getElem?_around h

theorem newline_within (hw : w.Fits c.text) (h : w.Spans c.text c.index) :
    (c.within w).current? = some '\n' ↔ c.current? = some '\n' :=
  hw.newline_around h

theorem peek?_within {offset : Nat} (h : w.Sees c.text (c.index + offset)) :
    (c.within w).peek? offset = c.peek? offset := by
  rw [peek?, within, Nat.add_right_comm]
  exact Margins.getElem?_around h

theorem startsWith_within (hw : w.Fits c.text) (h : w.Sees c.text c.index) {needle : String}
    (hn : '\n' ∉ needle.toList) : (c.within w).startsWith needle = c.startsWith needle :=
  hw.startsAt_around h hn

private theorem backslashesBefore_within (hw : w.Fits c.text) (h : w.Spans c.text c.index) :
    (c.within w).backslashesBefore = c.backslashesBefore :=
  hw.backslashesBelow_around h

theorem firstNonBlank?_within (hw : w.Fits c.text) {i : Nat} (h : w.Sees c.text i) :
    (c.within w).firstNonBlank? (i + w.offset) = c.firstNonBlank? i := by
  rw [firstNonBlank?, within, hw.blankRunEnd_around h.spans, Margins.getElem?_around (hw.sees_blankRunEnd h)]
  rfl

theorem blankRun_within (hw : w.Fits c.text) {i : Nat} (h : w.Spans c.text i) :
    (c.within w).blankRun (i + w.offset) = c.blankRun i := by
  have hdrop : (w.around c.text).toList.drop (i + w.offset) = (c.text.toList ++ w.behind).drop i := by
    rw [Margins.around, List.append_assoc, Nat.add_comm]
    exact List.drop_length_add_append i
  have hle := blankRunEnd_le c.text i
  rw [blankRun, blankRun, within, hw.blankRunEnd_around h, Array.toList_extract, Array.toList_extract,
    List.extract_eq_take_drop, List.extract_eq_take_drop, hdrop, Nat.add_sub_add_right]
  rcases h with hi | hnil
  · have hlen : blankRunEnd c.text i - i ≤ (c.text.toList.drop i).length := by
      rw [List.length_drop, Array.length_toList]
      omega
    rw [List.drop_append_of_le_length (by simpa using hi), List.take_append_of_le_length hlen]
  · rw [hnil, List.append_nil]

/-! ### Quiet steps -/

theorem within_moved (w : Margins) (c : Cursor) (n : Nat) :
    { c.within w with index := (c.within w).index + n } = within w { c with index := c.index + n } := by
  simp only [within, Nat.add_right_comm]

private theorem advance_within (hw : w.Fits c.text) (h : w.Sees c.text c.index) :
    (c.within w).advance o = (c.advance o).within w := by
  have hcur := newline_within (c := { c with index := c.index + 1 }) hw h.spans_succ
  simp only [advance, within_moved]
  by_cases hn : current? { c with index := c.index + 1 } = some '\n'
  · -- the newline belongs to the inner text, and so does the end of the blanks after it
    have hrun : w.Spans c.text (c.index + 1 + 1) := Or.inl (Array.getElem?_eq_some_iff.1 hn).1
    have hb := blankRun_within (c := { c with index := c.index + 1 }) hw hrun
    rw [if_pos (hcur.2 hn), if_pos hn]
    simp only [within] at hb ⊢
    rw [Nat.add_right_comm c.index w.offset 1, Nat.add_right_comm (c.index + 1) w.offset 1, hb]
    simp only [UInt32.add_assoc, UInt32.add_comm w.lines 1]
  · rw [if_neg (fun hn' => hn (hcur.1 hn')), if_neg hn]

private theorem stepQuiet_within (hw : w.Fits c.text) (h : w.Sees c.text c.index) :
    (c.within w).stepQuiet o = (c.stepQuiet o).within w := by
  fun_induction stepQuiet o c with
  | case1 c next hn ih =>
    have htext : next.text = c.text := text_advance o c
    have hin : next.index < next.text.size := lt_size_of_current hn
    have hn' : (next.within w).current? = some '\n' := by rw [current?_within (Or.inl hin), hn]
    rw [stepQuiet, advance_within hw h, dif_pos hn']
    exact ih (htext ▸ hw) (Or.inl hin)
  | case2 c next hn =>
    have htext : next.text = c.text := text_advance o c
    have hspan : w.Spans next.text next.index := by
      rw [htext, show next.index = c.index + 1 from index_advance o c]
      exact h.spans_succ
    have hn' : ¬ (next.within w).current? = some '\n' := fun hn' => hn ((newline_within (htext ▸ hw) hspan).1 hn')
    rw [stepQuiet, advance_within hw h, dif_neg hn']

theorem stepsQuiet_within (hw : w.Fits c.text) {n : Nat} (h : w.Spans c.text (c.stepsQuiet o n).index) :
    (c.within w).stepsQuiet o n = (c.stepsQuiet o n).within w := by
  induction n generalizing c with
  | zero => rfl
  | succ n ih =>
    have htext := (reaches_stepQuiet o c).text
    have hlt := Nat.lt_of_lt_of_le (index_lt_stepQuiet o c) (reaches_stepsQuiet o n (c.stepQuiet o)).index
    rw [stepsQuiet, stepsQuiet, stepQuiet_within hw (h.sees_of_lt hlt)]
    exact ih (htext ▸ hw) (htext ▸ h)

end Cursor

/-! ### Forms of constructs -/

/-- The form that opens at a place is seen alike. -/
theorem Form.at?_within {w : Margins} {c : Cursor} (hw : w.Fits c.text) (h : w.Sees c.text c.index)
    {forms : List Form} (hline : ∀ f ∈ forms, '\n' ∉ f.opening.toList) :
    Form.at? forms (c.within w).text.toList (c.within w).index = Form.at? forms c.text.toList c.index := by
  rw [at?_eq, at?_eq]
  exact List.find?_congr fun f hf => Cursor.startsWith_within hw h (hline f hf)

/-- Whether a construct with a closing delimiter can end at a place is seen alike. -/
theorem Form.closesAt_within {w : Margins} {c : Cursor} (hw : w.Fits c.text) (h : w.Sees c.text c.index) {f : Form}
    (hne : f.closing ≠ "") (hline : '\n' ∉ f.closing.toList) :
    f.closesAt (c.within w).text.toList (c.within w).index = f.closesAt c.text.toList c.index := by
  cases f with
  | quoted quote =>
    have hne : quote ≠ "" := hne
    have hline : '\n' ∉ quote.toList := hline
    rw [closesAt_quoted hne, closesAt_quoted hne, Cursor.startsWith_within hw h hline,
      Cursor.backslashesBefore_within hw h.spans]
  | block opening closing =>
    have hline : '\n' ∉ closing.toList := hline
    rw [closesAt, closesAt, ← Cursor.startsWith_eq, ← Cursor.startsWith_eq, Cursor.startsWith_within hw h hline]
  | line opening => exact absurd (by decide : '\n' ∈ "\n".toList) hline

/-! ### Bodies -/

/-- The body at its place in the longer text. -/
def Body.within (w : Margins) (body : Body) : Body :=
  ⟨body.cursor.within w, body.line + w.lines, body.text, body.terminated⟩

/-- The end of a construct is found at the same places of the inner text, under notes that may differ. -/
def SameEnd (w : Margins) (ends : Predicate) (text : Array Char) (n n' : Notes) : Prop :=
  ∃ test test' : Cursor → Bool, (∀ d, ends d n = .ok (test d) n) ∧ (∀ d, ends d n' = .ok (test' d) n') ∧
    ∀ d, d.text = text → w.Sees d.text d.index ∨ test d = true → test' (d.within w) = test d

/-- A body that ends in the inner text, or has nothing behind it, is read alike. -/
theorem readBody_within {w : Margins} {o : Options} {ends : Predicate} {text : Array Char} {n n' : Notes}
    (hw : w.Fits text) (hends : SameEnd w ends text n n') {c : Cursor} (hc : c.text = text) {line : UInt32}
    {read : String} {body : Body} {m : Notes} (h : readBody o ends c line read n = .ok body m)
    (hbody : body.terminated = true ∨ w.behind = []) :
    m = n ∧ readBody o ends (c.within w) (line + w.lines) read n' = .ok (body.within w) n' := by
  obtain ⟨test, test', asked, asked', same⟩ := hends
  fun_induction readBody o ends c line read n with
  | case1 c line read n e n₁ he =>
    rw [asked] at he
    cases he
  | case2 c line read n n₁ he =>
    rw [asked, EStateM.Result.ok.injEq] at he
    obtain ⟨htest, rfl⟩ := he
    cases h
    refine ⟨rfl, ?_⟩
    rw [readBody, asked', same c hc (Or.inr htest), htest]
    rfl
  | case3 c line read n n₁ he hnone =>
    rw [asked, EStateM.Result.ok.injEq] at he
    obtain ⟨htest, rfl⟩ := he
    cases h
    -- the body has not ended, so nothing stands behind it
    have hsees : w.Sees c.text c.index := Or.inr (hbody.resolve_left (by simp))
    have hnone' : (c.within w).current? = none := by rw [Cursor.current?_within hsees, hnone]
    refine ⟨rfl, ?_⟩
    rw [readBody, asked', same c hc (Or.inl hsees), htest]
    simp only
    split
    · rfl
    · rename_i ch hch
      rw [hnone'] at hch
      cases hch
  | case4 c line read n n₁ he ch hch read' ih =>
    rw [asked, EStateM.Result.ok.injEq] at he
    obtain ⟨htest, rfl⟩ := he
    have hsees : w.Sees c.text c.index := Or.inl (Cursor.lt_size_of_current hch)
    have hch' : (c.within w).current? = some ch := by rw [Cursor.current?_within hsees, hch]
    obtain ⟨hm, hread⟩ := ih ((Cursor.reaches_stepQuiet o c).text.trans hc) h asked
    refine ⟨hm, ?_⟩
    have hline : (c.within w).line = line + w.lines ↔ c.line = line := UInt32.add_left_inj _
    rw [readBody, asked', same c hc (Or.inl hsees), htest]
    simp only
    split
    · rename_i hnone
      rw [hch'] at hnone
      cases hnone
    · rename_i ch₁ hch₁
      rw [hch'] at hch₁
      cases hch₁
      rw [Cursor.stepQuiet_within (hc ▸ hw) hsees]
      simp only [hline]
      exact hread

end LexTree
