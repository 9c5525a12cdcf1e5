import Mathlib.Data.List.TakeWhile

/-!
# Thinning of newlines

A text is thinned by dropping newlines that another newline follows.  What is left of a run of newlines is at least one
of them, so thinning keeps the text with every run of newlines squeezed to one (`Thinned.squeeze_eq`), and keeps a text
without blank lines as it is (`Thinned.eq_of_no_adjacent`).  A squeezed text that still begins the text is the text
itself (`squeeze_isPrefix_iff`).
-/

namespace LexTree

/-- Every run of newlines made one newline. -/
def squeeze : List Char → List Char
  | [] => []
  | c :: cs => if c = '\n' ∧ cs.head? = some '\n' then squeeze cs else c :: squeeze cs

/-- A text without its final newline, if it has one. -/
def chomp (cs : List Char) : List Char := if cs.getLast? = some '\n' then cs.dropLast else cs

/-- The second text is the first with some newlines dropped that another newline follows. -/
inductive Thinned : List Char → List Char → Prop
  | nil : Thinned [] []
  | keep {cs ds : List Char} (c : Char) (h : Thinned cs ds) : Thinned (c :: cs) (c :: ds)
  | drop {cs ds : List Char} (h : Thinned ('\n' :: cs) ds) : Thinned ('\n' :: '\n' :: cs) ds

namespace Thinned

theorem refl (cs : List Char) : Thinned cs cs := by
  induction cs with
  | nil => exact .nil
  | cons c cs ih => exact .keep c ih

theorem append {cs ds cs' ds' : List Char} (h : Thinned cs ds) (h' : Thinned cs' ds') :
    Thinned (cs ++ cs') (ds ++ ds') := by
  induction h with
  | nil => exact h'
  | keep c _ ih => exact .keep c ih
  | drop _ ih => exact .drop ih

private theorem head?_eq {cs ds : List Char} (h : Thinned cs ds) : cs.head? = ds.head? := by
  induction h with
  | nil => rfl
  | keep c _ _ => rfl
  | drop _ ih => exact ih

theorem squeeze_eq {cs ds : List Char} (h : Thinned cs ds) : squeeze cs = squeeze ds := by
  induction h with
  | nil => rfl
  | keep c h ih => rw [squeeze, squeeze, h.head?_eq, ih]
  | drop _ ih => rw [squeeze, if_pos ⟨rfl, rfl⟩, ih]

theorem eq_of_no_adjacent {cs ds : List Char} (h : Thinned cs ds) (hn : ¬ ['\n', '\n'] <:+: cs) : ds = cs := by
  induction h with
  | nil => rfl
  | keep c _ ih => rw [ih fun hi => hn (List.infix_cons hi)]
  | @drop cs ds _ _ => exact absurd (List.prefix_append ['\n', '\n'] cs).isInfix hn

theorem length_le {cs ds : List Char} (h : Thinned cs ds) : ds.length ≤ cs.length := by
  induction h with
  | nil => exact Nat.le_refl _
  | keep c _ ih => exact Nat.succ_le_succ ih
  | drop _ ih => exact Nat.le_succ_of_le ih

theorem newlines (k : Nat) : Thinned (List.replicate (k + 1) '\n') ['\n'] := by
  induction k with
  | zero => exact .refl _
  | succ k ih => exact .drop ih

end Thinned

/-! ### Squeezing part by part -/

theorem squeeze_append_of_head {bs : List Char} (h : bs.head? ≠ some '\n') (as : List Char) :
    squeeze (as ++ bs) = squeeze as ++ squeeze bs := by
  induction as with
  | nil => rfl
  | cons a as ih =>
    -- a newline at the end of `as` stays, since none follows it
    have hhead : (as ++ bs).head? = some '\n' ↔ as.head? = some '\n' := by
      cases as with
      | nil => simp [h]
      | cons b as => simp
    simp only [List.cons_append, squeeze, hhead, ih]
    split <;> rfl

theorem squeeze_append_of_not_mem {as : List Char} (h : '\n' ∉ as) (bs : List Char) :
    squeeze (as ++ bs) = as ++ squeeze bs := by
  induction as with
  | nil => rfl
  | cons a as ih =>
    have ha : a ≠ '\n' := fun ha => h (by simp [ha])
    rw [List.cons_append, squeeze, if_neg fun hn => ha hn.1, ih fun hm => h (by simp [hm])]
    rfl

theorem squeeze_of_not_mem {cs : List Char} (h : '\n' ∉ cs) : squeeze cs = cs := by
  simpa [squeeze] using squeeze_append_of_not_mem h []

/-! ### Squeezed texts that begin the text -/

theorem thinned_squeeze (cs : List Char) : Thinned cs (squeeze cs) := by
  induction cs with
  | nil => exact .nil
  | cons c cs ih =>
    rw [squeeze]
    split
    · rename_i h
      obtain ⟨rfl, hhead⟩ := h
      obtain ⟨ds, rfl⟩ := List.head?_eq_some_iff.1 hhead
      exact .drop ih
    · exact .keep c ih

private theorem squeeze_newline_cons (cs : List Char) :
    squeeze ('\n' :: cs) = '\n' :: squeeze (cs.dropWhile (· = '\n')) := by
  induction cs with
  | nil => rfl
  | cons c cs ih =>
    by_cases hc : c = '\n'
    · subst hc
      rw [squeeze, if_pos ⟨rfl, rfl⟩, ih]
      rfl
    · rw [squeeze, if_neg fun h => hc (by simpa using h.2), List.dropWhile_cons_of_neg (by simpa using hc)]

/-- Two newlines become one, and what follows them is no newline. -/
private theorem not_isPrefix_squeeze {cs : List Char} (hend : ¬ ['\n', '\n'] <:+ '\n' :: '\n' :: cs) :
    ¬ squeeze ('\n' :: cs) <+: '\n' :: '\n' :: cs := by
  intro h
  rw [squeeze_newline_cons, List.cons_prefix_cons] at h
  cases hd : cs.dropWhile (· = '\n') with
  | nil =>
    have hall : ∀ c ∈ cs, c = '\n' := by simpa using List.dropWhile_eq_nil_iff.1 hd
    obtain ⟨k, rfl⟩ : ∃ k, cs = List.replicate k '\n' := ⟨_, List.eq_replicate_iff.2 ⟨rfl, hall⟩⟩
    exact hend ⟨List.replicate k '\n', List.replicate_append_replicate (m := 2)⟩
  | cons d ds =>
    have hne : d ≠ '\n' := by
      have hhead := List.head?_dropWhile_not (fun c => decide (c = '\n')) cs
      rw [hd] at hhead
      simpa using hhead
    rw [hd, squeeze, if_neg fun h => hne h.1, List.cons_prefix_cons] at h
    exact hne h.2.1

/-- A text that does not end with a blank line begins with its squeezed text only if it has no blank line. -/
theorem squeeze_isPrefix_iff {cs : List Char} (hend : ¬ ['\n', '\n'] <:+ cs) :
    squeeze cs <+: cs ↔ ¬ ['\n', '\n'] <:+: cs := by
  constructor
  · intro h
    induction cs with
    | nil => simp
    | cons c cs ih =>
      rw [squeeze] at h
      split at h
      · rename_i hc
        obtain ⟨rfl, hhead⟩ := hc
        obtain ⟨ds, rfl⟩ := List.head?_eq_some_iff.1 hhead
        exact absurd h (not_isPrefix_squeeze hend)
      · rename_i hc
        intro hi
        rcases List.infix_cons_iff.1 hi with ⟨ds, hds⟩ | hi
        · injection hds with h₁ h₂
          exact hc ⟨h₁.symm, by rw [← h₂]; rfl⟩
        · exact ih (fun hs => hend (hs.trans (List.suffix_cons c cs))) (List.cons_prefix_cons.1 h).2 hi
  · intro h
    exact ⟨[], by rw [List.append_nil, (thinned_squeeze cs).eq_of_no_adjacent h]⟩

/-! ### Final newlines -/

private theorem getLast?_squeeze (cs : List Char) : (squeeze cs).getLast? = cs.getLast? := by
  induction cs with
  | nil => rfl
  | cons c cs ih =>
    rw [squeeze]
    split
    · -- a newline that is dropped is not the last character
      rename_i h
      cases cs with
      | nil => simp at h
      | cons d ds => rw [ih, List.getLast?_cons_cons]
    · rw [List.getLast?_cons, List.getLast?_cons, ih]

theorem squeeze_append_newlines {cs : List Char} (h : cs.getLast? ≠ some '\n') (k : Nat) :
    squeeze (cs ++ List.replicate (k + 1) '\n') = squeeze cs ++ ['\n'] := by
  induction cs with
  | nil => exact (Thinned.newlines k).squeeze_eq
  | cons c cs ih =>
    cases cs with
    | nil =>
      have hc : c ≠ '\n' := by simpa using h
      have hk : squeeze (List.replicate (k + 1) '\n') = ['\n'] := (Thinned.newlines k).squeeze_eq
      simp [squeeze, hc, hk]
    | cons d ds =>
      rw [List.getLast?_cons_cons] at h
      have hstep : ∀ rest, squeeze (c :: d :: rest) =
          if c = '\n' ∧ d = '\n' then squeeze (d :: rest) else c :: squeeze (d :: rest) := by
        intro rest
        simp [squeeze]
      rw [List.cons_append, List.cons_append, hstep, hstep, ← List.cons_append, ih h]
      split <;> rfl

theorem squeeze_append_replicate {cs : List Char} (h : cs.getLast? ≠ some '\n') (k : Nat) :
    squeeze (cs ++ List.replicate k '\n') = squeeze cs ++ if k = 0 then [] else ['\n'] := by
  cases k with
  | zero => simp
  | succ k => simp [squeeze_append_newlines h k]

/-- Newlines at the end of a text add at most a final newline to the squeezed text. -/
theorem chomp_squeeze_append_newlines {cs : List Char} (h : cs.getLast? ≠ some '\n') (k : Nat) :
    chomp (squeeze (cs ++ List.replicate k '\n')) = squeeze cs := by
  cases k with
  | zero =>
    rw [List.replicate_zero, List.append_nil, chomp, getLast?_squeeze, if_neg h]
  | succ k =>
    rw [squeeze_append_newlines h, chomp, if_pos List.getLast?_concat, List.dropLast_concat]

end LexTree
