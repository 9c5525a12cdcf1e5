import LexTree.Text.Quoted
import Mathlib.Data.List.Chain

/-!
# Reading quoted text

How a character is written between quotes leaves three forms (`Written`): a backslash and a letter, a backslash and the
code point in braces, or the character itself, which is then no backslash, no quote and no newline.  Nothing else about
the table of printable characters matters here.  Each form tells the character and where it ends, so a text is known
from its quoted form (`quote_inj`); and a quote inside stands behind a backslash (`isChain_quoted`), so the opening
quote is known even behind a text that has quotes of its own (`append_quote_inj`).
-/

namespace LexTree

/-! ### Cutting a list at a mark -/

section

variable {α : Type} {x : α} {a b s t : List α}

/-- A list is cut in one way at the first of a mark. -/
theorem cut_at_first (ha : x ∉ a) (hb : x ∉ b) (h : a ++ x :: s = b ++ x :: t) : a = b ∧ s = t := by
  induction a generalizing b with
  | nil =>
    cases b with
    | nil => exact ⟨rfl, (List.cons.inj h).2⟩
    | cons y b => exact absurd ((List.cons.inj h).1 ▸ List.mem_cons_self) hb
  | cons z a ih =>
    cases b with
    | nil => exact absurd ((List.cons.inj h).1 ▸ List.mem_cons_self) ha
    | cons y b =>
      obtain ⟨rfl, hrest⟩ := List.cons.inj h
      obtain ⟨rfl, rfl⟩ := ih (mt (List.mem_cons_of_mem _) ha) (mt (List.mem_cons_of_mem _) hb) hrest
      exact ⟨rfl, rfl⟩

/-- A list is cut in one way at the last of a mark. -/
theorem cut_at_last (hs : x ∉ s) (ht : x ∉ t) (h : a ++ x :: s = b ++ x :: t) : a = b ∧ s = t := by
  have hrev := congrArg List.reverse h
  simp only [List.reverse_append, List.reverse_cons, List.append_assoc, List.singleton_append] at hrev
  obtain ⟨hst, hab⟩ := cut_at_first (by simpa using hs) (by simpa using ht) hrev
  exact ⟨List.reverse_inj.1 hab, List.reverse_inj.1 hst⟩

end

/-! ### Digits -/

private theorem digitChar_inj {m n : Nat} (hm : m < 16) (hn : n < 16) (h : m.digitChar = n.digitChar) : m = n := by
  have key : ∀ m < 16, ∀ n < 16, m.digitChar = n.digitChar → m = n := by decide
  exact key m hm n hn h

/-- A number is known from its digits, up to hexadecimal ones. -/
theorem toDigits_inj {base : Nat} (hlow : 1 < base) (hhigh : base ≤ 16) {m n : Nat}
    (h : base.toDigits m = base.toDigits n) : m = n := by
  induction m using Nat.strong_induction_on generalizing n with
  | _ m ih =>
    rw [Nat.toDigits_eq_if (n := m) hlow, Nat.toDigits_eq_if (n := n) hlow] at h
    split at h <;> split at h
    · exact digitChar_inj (by omega) (by omega) (List.cons.inj h).1
    · change [] ++ [m.digitChar] = _ at h
      exact absurd (List.append_inj' h rfl).1.symm Nat.toDigits_ne_nil
    · change _ = [] ++ [n.digitChar] at h
      exact absurd (List.append_inj' h rfl).1 Nat.toDigits_ne_nil
    · obtain ⟨hfront, hlast⟩ := List.append_inj' h rfl
      have hmod : m % base = n % base := by
        have := Nat.mod_lt m (show 0 < base by omega)
        have := Nat.mod_lt n (show 0 < base by omega)
        exact digitChar_inj (by omega) (by omega) (List.cons.inj hlast).1
      have hdiv : m / base = n / base := ih (m / base) (Nat.div_lt_self (by omega) hlow) hfront
      rw [← Nat.div_add_mod m base, ← Nat.div_add_mod n base, hdiv, hmod]

private theorem mem_toDigits {base n : Nat} (hlow : 1 < base) (hhigh : base ≤ 16) {c : Char} (h : c ∈ base.toDigits n) :
    ∃ d < 16, c = d.digitChar := by
  induction n using Nat.strong_induction_on with
  | _ n ih =>
    rw [Nat.toDigits_eq_if hlow] at h
    split at h
    · exact ⟨n, by omega, List.mem_singleton.1 h⟩
    · rcases List.mem_append.1 h with h | h
      · exact ih (n / base) (Nat.div_lt_self (by omega) hlow) h
      · have := Nat.mod_lt n (show 0 < base by omega)
        exact ⟨n % base, by omega, List.mem_singleton.1 h⟩

/-- The digits of a number are letters and digits. -/
theorem not_mem_toDigits {base n : Nat} (hlow : 1 < base) (hhigh : base ≤ 16) {c : Char} (hc : c.isAlphanum = false) :
    c ∉ base.toDigits n := by
  intro h
  obtain ⟨d, hd, rfl⟩ := mem_toDigits hlow hhigh h
  have key : ∀ d < 16, d.digitChar.isAlphanum = true := by decide
  rw [key d hd] at hc
  cases hc

/-! ### The forms of a character -/

/-- The characters with a letter of their own behind the backslash. -/
def letterEscapes : List (Char × Char) :=
  [('\x00', '0'), ('\t', 't'), ('\r', 'r'), ('\n', 'n'), ('"', '"'), ('\\', '\\')]

/-- The ways to write a character between quotes. -/
inductive Written (c : Char) : List Char → Prop
  | letter {d : Char} (h : (c, d) ∈ letterEscapes) : Written c ['\\', d]
  | code : Written c ('\\' :: 'u' :: '\x7b' :: (Nat.toDigits 16 c.toNat ++ ['\x7d']))
  | itself (hb : c ≠ '\\') (hq : c ≠ '"') (hn : c ≠ '\n') : Written c [c]

private theorem written_hexEscape (c : Char) : Written c (hexEscape c).toList := by
  have h : (hexEscape c).toList = '\\' :: 'u' :: '\x7b' :: (Nat.toDigits 16 c.toNat ++ ['\x7d']) := by
    simp [hexEscape]
  rw [h]
  exact .code

private theorem written_escape (c : Char) : Written c (escape c).toList := by
  unfold escape
  split
  · exact .letter (d := '0') (by decide)
  · exact .letter (d := 't') (by decide)
  · exact .letter (d := 'r') (by decide)
  · exact .letter (d := 'n') (by decide)
  · exact .letter (d := '"') (by decide)
  · exact .letter (d := '\\') (by decide)
  rename_i hnl hq hb
  have hself : Written c (String.singleton c).toList := by
    rw [String.toList_singleton]
    exact .itself hb hq hnl
  split
  · split
    · exact hself
    · exact written_hexEscape c
  · split
    · exact written_hexEscape c
    · exact hself

namespace Written

variable {c d : Char} {x y r s : List Char}

/-- Each form tells its character, and where it ends. -/
private theorem append_inj (hx : Written c x) (hy : Written d y) (h : x ++ r = y ++ s) : c = d ∧ r = s := by
  have hletters : ∀ p ∈ letterEscapes, ∀ q ∈ letterEscapes, p.2 = q.2 → p.1 = q.1 := by decide
  have hu : ∀ p ∈ letterEscapes, p.2 ≠ 'u' := by decide
  cases hx with
  | letter hc =>
    cases hy with
    | letter hd =>
      simp only [List.cons_append, List.nil_append, List.cons.injEq, true_and] at h
      exact ⟨hletters _ hc _ hd h.1, h.2⟩
    | code =>
      simp only [List.cons_append, List.nil_append, List.cons.injEq, true_and] at h
      exact absurd h.1 (hu _ hc)
    | itself hb =>
      simp only [List.cons_append, List.nil_append, List.cons.injEq] at h
      exact absurd h.1.symm hb
  | code =>
    cases hy with
    | letter hd =>
      simp only [List.cons_append, List.nil_append, List.cons.injEq, true_and] at h
      exact absurd h.1.symm (hu _ hd)
    | code =>
      simp only [List.cons_append, List.append_assoc, List.nil_append, List.cons.injEq, true_and] at h
      have hbrace : ∀ n, '\x7d' ∉ Nat.toDigits 16 n := fun n => not_mem_toDigits (by decide) (by decide) (by decide)
      obtain ⟨hdigits, hrest⟩ := cut_at_first (hbrace _) (hbrace _) h
      exact ⟨Char.toNat_inj.1 (toDigits_inj (by decide) (by decide) hdigits), hrest⟩
    | itself hb =>
      simp only [List.cons_append, List.nil_append, List.cons.injEq] at h
      exact absurd h.1.symm hb
  | itself hb =>
    cases hy with
    | letter | code =>
      simp only [List.cons_append, List.nil_append, List.cons.injEq] at h
      exact absurd h.1 hb
    | itself => exact List.cons.inj h

private theorem newline_not_mem (h : Written c x) : '\n' ∉ x := by
  cases h with
  | letter hc =>
    have hn : ∀ p ∈ letterEscapes, '\n' ≠ p.2 := by decide
    simp [hn _ hc]
  | code => simp [not_mem_toDigits (c := '\n')]
  | itself hb hq hn => simpa using hn.symm

private theorem exists_cons (h : Written c x) : ∃ z rest, x = z :: rest ∧ z ≠ '"' := by
  cases h with
  | letter | code => exact ⟨'\\', _, rfl, by decide⟩
  | itself hb hq => exact ⟨c, [], rfl, hq⟩

/-- A quote stands behind a backslash. -/
private theorem isChain (h : Written c x) : x.IsChain fun y z => z = '"' → y = '\\' := by
  cases h with
  | letter => simp
  | code =>
    rw [List.isChain_iff_forall_rel_of_append_cons_cons]
    rintro y z before after heq rfl
    have hmem : '"' ∈ before ++ y :: '"' :: after := by simp
    rw [← heq] at hmem
    simp [not_mem_toDigits (c := '"')] at hmem
  | itself => simp

end Written

/-! ### Texts -/

/-- A text as it stands between the quotes. -/
def quoted (cs : List Char) : List Char := cs.flatMap fun c => (escape c).toList

theorem toList_quote (s : String) : (quote s).toList = '"' :: (quoted s.toList ++ ['"']) := by
  have hfold : ∀ (cs : List Char) (out : String),
      (cs.foldl (fun out c => out ++ escape c) out).toList = out.toList ++ quoted cs := by
    intro cs
    induction cs with
    | nil => simp [quoted]
    | cons c cs ih => simp [ih, quoted]
  rw [quote, String.foldl_eq_foldl_toList, String.toList_append, hfold]
  simp

theorem newline_not_mem_quoted (cs : List Char) : '\n' ∉ quoted cs := by
  intro h
  obtain ⟨c, -, hc⟩ := List.mem_flatMap.1 h
  exact (written_escape c).newline_not_mem hc

private theorem quoted_cons (c : Char) (cs : List Char) : quoted (c :: cs) = (escape c).toList ++ quoted cs := rfl

/-- Between the quotes a quote stands behind a backslash. -/
theorem isChain_quoted (cs : List Char) : (quoted cs).IsChain fun y z => z = '"' → y = '\\' := by
  induction cs with
  | nil => simp [quoted]
  | cons c cs ih =>
    rw [quoted_cons, List.isChain_append]
    refine ⟨(written_escape c).isChain, ih, ?_⟩
    rintro y - z hz rfl
    -- what comes next is written too, and does not begin with a quote
    cases cs with
    | nil => cases hz
    | cons d cs =>
      obtain ⟨z, rest, hd, hne⟩ := (written_escape d).exists_cons
      rw [quoted_cons, hd] at hz
      exact absurd (Option.some.inj hz) hne

private theorem quoted_inj {cs ds : List Char} (h : quoted cs = quoted ds) : cs = ds := by
  have hne : ∀ c cs, quoted (c :: cs) ≠ [] := by
    intro c cs
    obtain ⟨z, rest, hc, -⟩ := (written_escape c).exists_cons
    simp [quoted_cons, hc]
  induction cs generalizing ds with
  | nil =>
    cases ds with
    | nil => rfl
    | cons d ds => exact absurd h.symm (hne d ds)
  | cons c cs ih =>
    cases ds with
    | nil => exact absurd h (hne c cs)
    | cons d ds =>
      obtain ⟨rfl, hrest⟩ := (written_escape c).append_inj (written_escape d) h
      rw [ih hrest]

theorem quote_inj {s t : String} (h : (quote s).toList = (quote t).toList) : s = t := by
  rw [toList_quote, toList_quote, List.cons.injEq, List.append_cancel_right_eq] at h
  exact String.toList_inj.1 (quoted_inj h.2)

/-- A quoted text does not end in a shorter one that a mark sets off. -/
private theorem quote_ne_append_quote {mark : Char} (hb : mark ≠ '\\') (hq : mark ≠ '"') (s t : String)
    (a : List Char) : (quote s).toList ≠ a ++ mark :: (quote t).toList := by
  rw [toList_quote, toList_quote]
  intro h
  cases a with
  | nil => exact hq (List.cons.inj h).1.symm
  | cons z a =>
    have hbody : quoted s.toList = a ++ mark :: '"' :: quoted t.toList := by
      have hrest : quoted s.toList ++ ['"'] = a ++ mark :: '"' :: (quoted t.toList ++ ['"']) := (List.cons.inj h).2
      rw [← List.cons_append, ← List.cons_append, ← List.append_assoc] at hrest
      exact List.append_cancel_right hrest
    have hchain := isChain_quoted s.toList
    rw [hbody, List.isChain_iff_forall_rel_of_append_cons_cons] at hchain
    exact hb (hchain rfl rfl)

/-- What stands before a quoted text may have quotes of its own. -/
theorem append_quote_inj {mark : Char} (hb : mark ≠ '\\') (hq : mark ≠ '"') {a b : List Char} {s t : String}
    (h : a ++ mark :: (quote s).toList = b ++ mark :: (quote t).toList) : a = b ∧ s = t := by
  rcases List.append_eq_append_iff.1 h with ⟨_ | ⟨z, rest⟩, rfl, hrest⟩ | ⟨_ | ⟨z, rest⟩, rfl, hrest⟩
  · exact ⟨(List.append_nil a).symm, quote_inj (List.cons.inj hrest).2⟩
  · exact absurd (List.cons.inj hrest).2 (quote_ne_append_quote hb hq s t rest)
  · exact ⟨List.append_nil b, quote_inj (List.cons.inj hrest).2.symm⟩
  · exact absurd (List.cons.inj hrest).2 (quote_ne_append_quote hb hq t s rest)

end LexTree
