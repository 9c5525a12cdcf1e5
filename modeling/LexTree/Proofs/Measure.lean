import LexTree.Options
import Mathlib.Algebra.GroupWithZero.Nat

/-!
# The measure of a run of blanks

Measuring goes through a run with two counters, the full levels and the spaces of the next one.  A tab cuts the run: the
spaces between two tabs fill levels on their own, and what is left of them when a tab comes is lost.  So the measure is
found by dividing the spaces between the tabs by the width of a level and adding the tabs.  The key fact is
`toNat_measureFrom`: with some spaces counted already, the loop measures what it would measure with these spaces in
front.  The loop can be stopped anywhere, and `measureFrom_append` says what its counters are there.
-/

namespace LexTree

/-! ### Spaces between tabs -/

/-- How many spaces stand before the first tab of a run, between one tab and the next, and behind the last. -/
def spaceCounts (run : List Char) : List Nat :=
  ((run.filter fun c => c = ' ' || c = '\t').splitOn '\t').map List.length

@[simp] theorem spaceCounts_nil : spaceCounts [] = [0] := rfl

private theorem spaceCounts_ne_nil (run : List Char) : spaceCounts run ≠ [] := by
  simp [spaceCounts, List.splitOn_ne_nil]

private theorem exists_spaceCounts (run : List Char) : ∃ n ns, spaceCounts run = n :: ns :=
  List.exists_cons_of_ne_nil (spaceCounts_ne_nil run)

@[simp] theorem spaceCounts_space (run : List Char) :
    spaceCounts (' ' :: run) = (spaceCounts run).modifyHead (· + 1) := by
  simp only [spaceCounts, List.filter_cons, decide_true, Bool.true_or, if_true, List.splitOn_cons_eq_if_modifyHead]
  cases (run.filter fun c => c = ' ' || c = '\t').splitOn '\t' <;> rfl

@[simp] theorem spaceCounts_tab (run : List Char) : spaceCounts ('\t' :: run) = 0 :: spaceCounts run := by
  simp [spaceCounts, List.splitOn_cons_eq_if_modifyHead]

private theorem spaceCounts_other {c : Char} (hs : c ≠ ' ') (ht : c ≠ '\t') (run : List Char) :
    spaceCounts (c :: run) = spaceCounts run := by
  simp [spaceCounts, hs, ht]

namespace Options

/-- Spaces to an indent level; none is taken for one. -/
def width (o : Options) : Nat := max o.indentWidth.toNat 1

private theorem width_pos (o : Options) : 0 < o.width := by
  unfold width
  omega

private theorem width_lt (o : Options) : o.width < UInt32.size := by
  have := o.indentWidth.toNat_lt
  simp only [width, UInt32.size]
  omega

private theorem toNat_max_indentWidth (o : Options) : (max o.indentWidth 1).toNat = o.width := by
  change (if o.indentWidth ≤ 1 then 1 else o.indentWidth).toNat = max o.indentWidth.toNat 1
  simp only [Nat.max_def, UInt32.le_iff_toNat_le, apply_ite UInt32.toNat]
  rfl

/-- The levels that the spaces between tabs fill, and those of the tabs themselves. -/
def levelsOf (o : Options) (counts : List Nat) : Nat :=
  (counts.map (· / o.width)).sum + if o.allowTabs then counts.length - 1 else 0

/-- The spaces behind the last tab that fill no level. -/
def spacesLeft (o : Options) (counts : List Nat) : Nat := counts.getLastD 0 % o.width

private theorem spacesLeft_lt (o : Options) (counts : List Nat) : o.spacesLeft counts < o.width :=
  Nat.mod_lt _ o.width_pos

/-! ### Spaces in front of a run -/

/-- The spaces of a run that has some more in front of it. -/
def countsAfter (spaces : Nat) (run : List Char) : List Nat := (spaceCounts run).modifyHead (· + spaces)

variable {o : Options} {spaces : Nat} {run : List Char}

private theorem countsAfter_zero : countsAfter 0 run = spaceCounts run := by
  obtain ⟨n, ns, hcounts⟩ := exists_spaceCounts run
  simp [countsAfter, hcounts]

private theorem countsAfter_space : countsAfter spaces (' ' :: run) = countsAfter (spaces + 1) run := by
  obtain ⟨n, ns, hcounts⟩ := exists_spaceCounts run
  simp only [countsAfter, spaceCounts_space, hcounts, List.modifyHead_cons, List.cons.injEq, and_true]
  omega

private theorem countsAfter_tab : countsAfter spaces ('\t' :: run) = spaces :: spaceCounts run := by
  simp [countsAfter]

private theorem countsAfter_other {c : Char} (hs : c ≠ ' ') (ht : c ≠ '\t') :
    countsAfter spaces (c :: run) = countsAfter spaces run := by
  rw [countsAfter, spaceCounts_other hs ht, countsAfter]

private theorem levelsOf_countsAfter_nil (h : spaces < o.width) : o.levelsOf (countsAfter spaces []) = 0 := by
  simp [levelsOf, countsAfter, Nat.div_eq_of_lt h]

/-- The spaces of a full level count for one. -/
private theorem levelsOf_countsAfter_width :
    o.levelsOf (countsAfter o.width run) = o.levelsOf (spaceCounts run) + 1 := by
  obtain ⟨n, ns, hcounts⟩ := exists_spaceCounts run
  simp only [levelsOf, countsAfter, hcounts, List.modifyHead_cons, List.map_cons, List.sum_cons, List.length_cons,
    Nat.add_div_right _ o.width_pos]
  omega

/-- Spaces that fill no level are lost at a tab. -/
private theorem levelsOf_cons (h : spaces < o.width) :
    o.levelsOf (spaces :: spaceCounts run) = o.levelsOf (spaceCounts run) + if o.allowTabs then 1 else 0 := by
  obtain ⟨n, ns, hcounts⟩ := exists_spaceCounts run
  simp only [levelsOf, hcounts, List.map_cons, List.sum_cons, List.length_cons, Nat.div_eq_of_lt h]
  split <;> omega

private theorem spacesLeft_countsAfter_nil (h : spaces < o.width) : o.spacesLeft (countsAfter spaces []) = spaces := by
  simp [spacesLeft, countsAfter, Nat.mod_eq_of_lt h]

private theorem spacesLeft_countsAfter_width :
    o.spacesLeft (countsAfter o.width run) = o.spacesLeft (spaceCounts run) := by
  obtain ⟨n, _ | ⟨m, ns⟩, hcounts⟩ := exists_spaceCounts run <;> simp [spacesLeft, countsAfter, hcounts]

private theorem spacesLeft_cons : o.spacesLeft (spaces :: spaceCounts run) = o.spacesLeft (spaceCounts run) := by
  obtain ⟨n, ns, hcounts⟩ := exists_spaceCounts run
  simp [spacesLeft, hcounts]

/-! ### The loop -/

private theorem toNat_succ {n : UInt32} (h : n.toNat + 1 < UInt32.size) : (n + 1).toNat = n.toNat + 1 := by
  rw [UInt32.toNat_add, UInt32.toNat_one]
  exact Nat.mod_eq_of_lt h

private theorem succ_eq_iff {spaces : UInt32} (h : spaces.toNat < o.width) :
    spaces + 1 = max o.indentWidth 1 ↔ spaces.toNat + 1 = o.width := by
  have := o.width_lt
  rw [← UInt32.toNat_inj, toNat_max_indentWidth, toNat_succ (by omega)]

/-- With some spaces counted, the loop measures what it would with these in front of the run. -/
theorem toNat_measureFrom (levels spaces : UInt32) (hs : spaces.toNat < o.width)
    (hl : levels.toNat + run.length < UInt32.size) :
    (o.measureFrom levels spaces run).toNat = levels.toNat + o.levelsOf (countsAfter spaces.toNat run) := by
  fun_induction measureFrom o levels spaces run with
  | case1 levels spaces => rw [levelsOf_countsAfter_nil hs, Nat.add_zero]
  | case2 levels spaces rest hfull ih =>
    rw [List.length_cons] at hl
    rw [succ_eq_iff hs] at hfull
    -- a level is full: its spaces move from one counter to the other
    rw [ih o.width_pos (by rw [toNat_succ (by omega)]; omega), toNat_succ (by omega), countsAfter_space, hfull,
      levelsOf_countsAfter_width, UInt32.toNat_zero, countsAfter_zero]
    omega
  | case3 levels spaces rest hfull ih =>
    rw [List.length_cons] at hl
    rw [succ_eq_iff hs] at hfull
    have := o.width_lt
    have hspaces : (spaces + 1).toNat = spaces.toNat + 1 := toNat_succ (by omega)
    rw [ih (by omega) (by omega), hspaces, countsAfter_space]
  | case4 levels spaces rest ih =>
    rw [List.length_cons] at hl
    have hlevels :
        (if o.allowTabs then levels + 1 else levels).toNat = levels.toNat + if o.allowTabs then 1 else 0 := by
      split
      · exact toNat_succ (by omega)
      · rfl
    -- the spaces before the tab fill no level, and the count starts anew behind it
    rw [ih o.width_pos (by rw [hlevels]; split <;> omega), hlevels, countsAfter_tab, levelsOf_cons hs,
      UInt32.toNat_zero, countsAfter_zero]
    omega
  | case5 levels spaces c rest hspace htab ih =>
    rw [List.length_cons] at hl
    rw [ih hs (by omega), countsAfter_other (fun h => hspace h) fun h => htab h]

/-- The loop may be stopped and taken up again with the counters it has reached. -/
theorem measureFrom_append (levels spaces : UInt32) (hs : spaces.toNat < o.width) (more : List Char) :
    o.measureFrom levels spaces (run ++ more) =
      o.measureFrom (o.measureFrom levels spaces run) (.ofNat (o.spacesLeft (countsAfter spaces.toNat run))) more := by
  fun_induction measureFrom o levels spaces run with
  | case1 levels spaces => rw [spacesLeft_countsAfter_nil hs, UInt32.ofNat_toNat, List.nil_append]
  | case2 levels spaces rest hfull ih =>
    rw [List.cons_append, measureFrom, if_pos hfull, ih o.width_pos, countsAfter_space, (succ_eq_iff hs).1 hfull,
      spacesLeft_countsAfter_width, UInt32.toNat_zero, countsAfter_zero]
  | case3 levels spaces rest hfull ih =>
    have := o.width_lt
    have hspaces : (spaces + 1).toNat = spaces.toNat + 1 := toNat_succ (by omega)
    have hne := mt (succ_eq_iff hs).2 hfull
    rw [List.cons_append, measureFrom, if_neg hfull, ih (by omega), countsAfter_space, hspaces]
  | case4 levels spaces rest ih =>
    rw [List.cons_append, measureFrom, ih o.width_pos, countsAfter_tab, spacesLeft_cons, UInt32.toNat_zero,
      countsAfter_zero]
  | case5 levels spaces c rest hspace htab ih =>
    rw [List.cons_append, measureFrom, ih hs, countsAfter_other (fun h => hspace h) fun h => htab h]
    · exact hspace
    · exact htab

/-- Characters that are neither spaces nor tabs may be taken out. -/
private theorem measureFrom_filter {keep : Char → Bool} (hs : keep ' ' = true) (ht : keep '\t' = true)
    (levels spaces : UInt32)
    (run : List Char) : o.measureFrom levels spaces (run.filter keep) = o.measureFrom levels spaces run := by
  fun_induction measureFrom o levels spaces run with
  | case1 levels spaces => rfl
  | case2 levels spaces rest hfull ih => rw [List.filter_cons_of_pos hs, measureFrom, if_pos hfull, ih]
  | case3 levels spaces rest hfull ih => rw [List.filter_cons_of_pos hs, measureFrom, if_neg hfull, ih]
  | case4 levels spaces rest ih => rw [List.filter_cons_of_pos ht, measureFrom, ih]
  | case5 levels spaces c rest hspace htab ih =>
    rw [List.filter_cons]
    split
    · rw [measureFrom, ih]
      · exact hspace
      · exact htab
    · exact ih

/-! ### Bounds -/

private theorem levelsOf_le (o : Options) (counts : List Nat) :
    o.levelsOf counts ≤ counts.sum + (counts.length - 1) := by
  have hsum : (counts.map (· / o.width)).sum ≤ counts.sum := by
    induction counts with
    | nil => exact Nat.le_refl 0
    | cons n ns ih =>
      have := Nat.div_le_self n o.width
      rw [List.map_cons, List.sum_cons, List.sum_cons]
      omega
  unfold levelsOf
  split <;> omega

/-- Every space and every tab is a character of the run. -/
private theorem sum_spaceCounts_le (run : List Char) :
    (spaceCounts run).sum + ((spaceCounts run).length - 1) ≤ run.length := by
  induction run with
  | nil => simp
  | cons c run ih =>
    obtain ⟨n, ns, hcounts⟩ := exists_spaceCounts run
    rw [hcounts, List.sum_cons, List.length_cons] at ih
    rw [List.length_cons]
    by_cases hs : c = ' '
    · rw [hs, spaceCounts_space, hcounts, List.modifyHead_cons, List.sum_cons, List.length_cons]
      omega
    · by_cases ht : c = '\t'
      · rw [ht, spaceCounts_tab, hcounts, List.sum_cons, List.sum_cons, List.length_cons, List.length_cons]
        omega
      · rw [spaceCounts_other hs ht, hcounts, List.sum_cons, List.length_cons]
        omega

private theorem toNat_measureIndent (h : run.length < UInt32.size) :
    (o.measureIndent run).toNat = o.levelsOf (spaceCounts run) := by
  rw [measureIndent, toNat_measureFrom 0 0 o.width_pos (by simpa using h), UInt32.toNat_zero, Nat.zero_add,
    countsAfter_zero]

private theorem toNat_measureIndent_le (o : Options) (h : run.length < UInt32.size) :
    (o.measureIndent run).toNat ≤ run.length := by
  have := o.levelsOf_le (spaceCounts run)
  have := sum_spaceCounts_le run
  rw [toNat_measureIndent h]
  omega

private theorem measureIndent_append (o : Options) (run more : List Char) :
    o.measureIndent (run ++ more) =
      o.measureFrom (o.measureIndent run) (.ofNat (o.spacesLeft (spaceCounts run))) more := by
  rw [measureIndent, measureFrom_append 0 0 o.width_pos, UInt32.toNat_zero, countsAfter_zero, measureIndent]

private theorem toNat_spacesLeft (o : Options) (counts : List Nat) :
    (UInt32.ofNat (o.spacesLeft counts)).toNat = o.spacesLeft counts := by
  have := o.spacesLeft_lt counts
  have := o.width_lt
  exact UInt32.toNat_ofNat_of_lt (by omega)

/-- The measure of a run in closed form.  The spaces between the tabs are divided by the width of a level, and the tabs
are added if they count.  So the measure is at most the length of the run; wherever the loop stands, it is with the
measure of what it has passed and the spaces left over since the last tab, and both counters can take one more;
characters that are neither spaces nor tabs make no difference; and a longer run measures no less. -/
theorem measureIndent_closed_form (o : Options) {run : List Char} (h : run.length < UInt32.size) :
    (o.measureIndent run).toNat =
      ((spaceCounts run).map (· / max o.indentWidth.toNat 1)).sum +
        (if o.allowTabs then (spaceCounts run).length - 1 else 0) ∧
    (o.measureIndent run).toNat ≤ run.length ∧
    (∀ before c after, run = before ++ c :: after → ∃ spaces : UInt32,
      o.measureIndent run = o.measureFrom (o.measureIndent before) spaces (c :: after) ∧
        spaces.toNat = (spaceCounts before).getLastD 0 % max o.indentWidth.toNat 1 ∧
        (o.measureIndent before).toNat + 1 < UInt32.size ∧ spaces.toNat + 1 < UInt32.size) ∧
    (∀ c, c ≠ ' ' → c ≠ '\t' → o.measureIndent (run.filter (· ≠ c)) = o.measureIndent run) ∧
    ∀ more, (run ++ more).length < UInt32.size → o.measureIndent run ≤ o.measureIndent (run ++ more) := by
  refine ⟨toNat_measureIndent h, o.toNat_measureIndent_le h, ?_, ?_, ?_⟩
  · rintro before c after rfl
    rw [List.length_append, List.length_cons] at h
    have hlevels : (o.measureIndent before).toNat ≤ before.length := o.toNat_measureIndent_le (by omega)
    have hspaces := o.spacesLeft_lt (spaceCounts before)
    have := o.width_lt
    refine ⟨_, o.measureIndent_append before (c :: after), o.toNat_spacesLeft _, by omega, ?_⟩
    rw [toNat_spacesLeft]
    omega
  · intro c hs ht
    exact measureFrom_filter (by simpa using hs.symm) (by simpa using ht.symm) 0 0 run
  · intro more hmore
    rw [List.length_append] at hmore
    have hle := o.toNat_measureIndent_le h
    rw [UInt32.le_iff_toNat_le, measureIndent_append, toNat_measureFrom]
    · exact Nat.le_add_right ..
    · rw [toNat_spacesLeft]
      exact o.spacesLeft_lt _
    · omega

/-- Between the tabs are three, five and one spaces, the five behind a carriage return. -/
theorem measureIndent_closed_form_tabs :
    spaceCounts "   \t\r     \t ".toList = [3, 5, 1] ∧
      (measureIndent { indentWidth := 2 } "   \t\r     \t ".toList).toNat = 3 / 2 + 5 / 2 + 1 / 2 + 2 ∧
      measureIndent { indentWidth := 2 } "   \t\r     \t ".toList ≤
        measureIndent { indentWidth := 2 } ("   \t\r     \t ".toList ++ " ".toList) := by
  have hlength : "   \t\r     \t ".toList.length < UInt32.size := by decide
  obtain ⟨hvalue, -, -, -, hmono⟩ := measureIndent_closed_form { indentWidth := 2 } hlength
  have hcounts : spaceCounts "   \t\r     \t ".toList = [3, 5, 1] := by decide
  rw [hcounts] at hvalue
  exact ⟨hcounts, hvalue, hmono _ (by decide)⟩

end Options

end LexTree
