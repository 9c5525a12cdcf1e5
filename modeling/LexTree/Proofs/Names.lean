import LexTree.Proofs.Sizes
import LexTree.Proofs.Tables
import LexTree.Proofs.Words

/-!
# The names of leaves

A leaf gets its name from a table of the language, or one of the few fixed names.  Labels are in upper case, and upper
case brings in no newline (`newline_not_mem_upper`); so the names that bundled languages give stand on one line.
-/

namespace LexTree

/-! ### Upper case -/

private theorem eq_of_ofNat_eq_newline {n : Nat} (h : Char.ofNat n = '\n') : n = 10 := by
  by_cases hn : n.isValidChar
  · rw [Char.ofNat, dif_pos hn] at h
    exact congrArg Char.toNat h
  · rw [Char.ofNat, dif_neg hn] at h
    cases h

private theorem CaseRun.target_le {r : CaseRun} {n image : Nat} (h : r.image? n = some image) : r.target ≤ image := by
  unfold image? at h
  split at h
  · cases h
    exact Nat.le_add_right ..
  · cases h

/-- A mapping whose images lie above the newline sends no other character to it. -/
private theorem CaseMap.newline_not_mem_apply {m : CaseMap} (hruns : ∀ r ∈ m.runs, 10 < r.target)
    (hseveral : ∀ p ∈ m.several, ∀ n ∈ p.2, 10 < n) {c : Char} (hc : c ≠ '\n') : '\n' ∉ m.apply c := by
  unfold apply
  simp only
  split
  · rename_i k image hfound
    intro hmem
    obtain ⟨n, hn, heq⟩ := List.mem_map.1 hmem
    have := hseveral _ (Array.mem_of_find?_eq_some hfound) n hn
    have := eq_of_ofNat_eq_newline heq
    omega
  · split
    · rename_i image hfound
      intro hmem
      obtain ⟨r, hr, himage⟩ := Option.bind_eq_some_iff.1 hfound
      have := hruns r (Array.mem_of_getElem? hr)
      have := CaseRun.target_le himage
      have := eq_of_ofNat_eq_newline (List.mem_singleton.1 hmem).symm
      omega
    · simpa using hc.symm

private theorem newline_not_mem_uppercase {c : Char} (hc : c ≠ '\n') : '\n' ∉ CaseMap.uppercase.apply c := by
  have hruns : ∀ r ∈ CaseMap.uppercase.runs.toList, 10 < r.target := by decide +kernel
  have hseveral : ∀ p ∈ CaseMap.uppercase.several.toList, ∀ n ∈ p.2, 10 < n := by decide +kernel
  exact CaseMap.newline_not_mem_apply (fun r hr => hruns r (Array.mem_toList_iff.2 hr))
    (fun p hp => hseveral p (Array.mem_toList_iff.2 hp)) hc

private theorem toList_upper (s : String) : (upper s).toList = s.toList.flatMap CaseMap.uppercase.apply := by
  have hpush : ∀ (cs : List Char) (out : String), (cs.foldl String.push out).toList = out.toList ++ cs := by
    intro cs
    induction cs with
    | nil => simp
    | cons c cs ih => simp [ih]
  have hfold : ∀ (cs : List Char) (out : String),
      (cs.foldl (fun out c => (CaseMap.uppercase.apply c).foldl String.push out) out).toList =
        out.toList ++ cs.flatMap CaseMap.uppercase.apply := by
    intro cs
    induction cs with
    | nil => simp
    | cons c cs ih => simp [ih, hpush]
  rw [upper, String.foldl_eq_foldl_toList, hfold]
  simp

/-- Upper case brings in no newline. -/
theorem newline_not_mem_upper {s : String} (h : '\n' ∉ s.toList) : '\n' ∉ (upper s).toList := by
  rw [toList_upper]
  intro hmem
  obtain ⟨c, hc, hmem⟩ := List.mem_flatMap.1 hmem
  exact newline_not_mem_uppercase (fun heq => h (heq ▸ hc)) hmem

/-! ### Names that a language gives -/

/-- The names that are in no table. -/
def fixedNames : List String :=
  [SymbolicName.identifier, SymbolicName.unknown, SymbolicName.comment, SymbolicName.string, SymbolicName.whitespace,
    SymbolicName.newline]

/-- A name that a leaf of the language can have. -/
inductive Language.Names (L : Language) : String → Prop
  | keyword {text label : String} (h : L.keywords.label? text = some label) : Names L label
  | symbol {text label : String} (h : L.symbols.label? text = some label) : Names L label
  | fixed {name : String} (h : name ∈ fixedNames) : Names L name

section

variable {L : Language}

private theorem names_classifyWord (text : String) : L.Names (classifyWord L.keywords text).2 := by
  unfold classifyWord
  cases h : L.keywords.label? text with
  | none => exact .fixed (by decide)
  | some label => exact .keyword h

private theorem names_label (text : String) : L.Names ((L.symbols.label? text).getD SymbolicName.unknown) := by
  cases h : L.symbols.label? text with
  | none => exact .fixed (by decide)
  | some label => exact .symbol h

private theorem names_classifySymbol (text : String) : L.Names (classifySymbol L.symbols text).2 := by
  unfold classifySymbol
  simp only
  split
  · split
    · exact .fixed (by decide)
    · split
      · exact .fixed (by decide)
      · exact names_label text
  · exact names_label text

private theorem names_classifyDelimiter (text : String) : L.Names (classifyDelimiter L.keywords L.symbols text).2 := by
  unfold classifyDelimiter
  split
  · exact names_classifyWord text
  · exact names_classifySymbol text

private theorem names_of_isLayout {l : Leaf} (h : l.isLayout = true) : L.Names l.name := by
  simp only [Leaf.isLayout, Bool.and_eq_true, Bool.or_eq_true, decide_eq_true_eq] at h
  rcases h.2 with hname | hname
  all_goals
    rw [hname]
    exact .fixed (by decide)

private theorem names_leafName (b : Boundary) : L.Names b.leafName := by
  cases b <;> exact .fixed (by decide)

end

/-! ### Leaves of a scan -/

namespace State

variable {L : Language} {o : Options} {s s' t : State} {heads : List State} {text : String}

private theorem names_wordLeaves : ∀ l ∈ s.wordLeaves L, L.Names l.name := by
  intro l hl
  unfold wordLeaves at hl
  split at hl
  · cases hl
  · rw [List.mem_singleton.1 hl]
    exact names_classifyWord s.word

private theorem names_delimiterLeaves (marker : String) : ∀ l ∈ s.delimiterLeaves L marker, L.Names l.name := by
  intro l hl
  unfold delimiterLeaves at hl
  split at hl
  · cases hl
  · rw [List.mem_singleton.1 hl]
    exact names_classifyDelimiter marker

private theorem names_append {leaves new : List Leaf} (h : ∀ l ∈ leaves, L.Names l.name)
    (hnew : ∀ l ∈ new, L.Names l.name) : ∀ l ∈ leaves ++ new, L.Names l.name := by
  intro l hl
  rcases List.mem_append.1 hl with hl | hl
  · exact h l hl
  · exact hnew l hl

private theorem names_plain (s : State) (L : Language) (o : Options) :
    ∃ leaves : List Leaf, (s.plain L o).events.toList = s.events.toList ++ leaves.map .leaf ∧
      ∀ l ∈ leaves, L.Names l.name := by
  cases hc : s.cursor.current? with
  | none => exact ⟨[], by simp [plain, hc], by simp⟩
  | some c =>
    cases hw : L.isWordChar c with
    | true => exact ⟨[], by simp [plain, hc, hw], by simp⟩
    | false =>
      by_cases hn : c = '\n'
      · subst hn
        obtain ⟨layout, he, hlayout⟩ := events_newline (s.flush L) o
        refine ⟨s.wordLeaves L ++ layout, ?_, ?_⟩
        · rw [plain_of_newline hw hc, he, events_flush, List.map_append, List.append_assoc]
        · exact names_append names_wordLeaves fun l hl => names_of_isLayout (hlayout l hl)
      · refine ⟨_, events_plain_of_ne hc hn hw, names_append names_wordLeaves ?_⟩
        intro l hl
        split at hl
        · split at hl
          · rw [List.mem_singleton.1 hl]
            exact .fixed (show SymbolicName.whitespace ∈ fixedNames by decide)
          · cases hl
        · rw [List.mem_singleton.1 hl]
          exact names_label _

/-- A step gives leaves names of the language. -/
private theorem names_step (h : s.step L o = .ok () s') :
    ∃ leaves, s'.leaves = s.leaves ++ leaves ∧ ∀ l ∈ leaves, L.Names l.name := by
  obtain ⟨new, problems, hemits, he, -⟩ := emits_step h
  cases hemits with
  | @plain n _ found =>
    obtain ⟨leaves, hevents, hnames⟩ := names_plain { s with notes := n } L o
    refine ⟨leaves, leaves_of_leaves ?_, hnames⟩
    rw [step_eq_of_none found] at h
    injection h with _ h
    rw [← h, events_settle, hevents]
  | @construct b _ _ found hb text =>
    refine ⟨_, leaves_of_leaves he, names_append names_wordLeaves ?_⟩
    intro l hl
    split at hl
    · rw [List.mem_singleton.1 hl]
      exact names_leafName b
    · cases hl
  | opened found => exact ⟨_, leaves_opened found h, names_append names_wordLeaves (names_delimiterLeaves _)⟩
  | closed found => exact ⟨_, leaves_closed found h, names_append names_wordLeaves (names_delimiterLeaves _)⟩
  | stray found => exact ⟨_, leaves_closed found h, names_append names_wordLeaves (names_delimiterLeaves _)⟩

private theorem Runs.names (h : Runs L o (start text) heads t) : ∀ l ∈ t.leaves, L.Names l.name := by
  refine (h.invariant (P := fun u => ∀ l ∈ u.leaves, L.Names l.name) (by simp [leaves, start]) ?_).2
  intro u u' hu _ hstep
  obtain ⟨new, hleaves, hnew⟩ := names_step hstep
  rw [hleaves]
  exact names_append hu hnew

/-- Every leaf of a scan has a name of the language. -/
theorem names_of_scan {out : Output} (h : scan L o text = .ok out) : ∀ l ∈ out.root.leaves, L.Names l.name := by
  obtain ⟨-, -, heads, t, hr, -, rfl⟩ := scan_eq_ok_iff.1 h
  -- the word that is being gathered at the end becomes the last leaf
  have hleaves : (t.finish L).root.leaves = t.leaves ++ t.wordLeaves L := by
    rw [← Scope.toList_flatten, finish, Scope.flatten_ofEvents]
    exact leaves_of_leaves (events_flush t L)
  rw [hleaves]
  exact names_append hr.names names_wordLeaves

end State

/-! ### Bundled languages -/

/-- Labels and words on one line make names on one line. -/
private theorem Language.Names.one_line {L : Language} {name : String} (h : L.Names name)
    (pairs : List (String × String))
    (words : List String) (hsymbols : L.symbols = .ofPairs pairs) (hkeywords : L.keywords = .ofWords words)
    (hpairs : ∀ p ∈ pairs, '\n' ∉ p.2.toList) (hwords : ∀ w ∈ words, '\n' ∉ w.toList) : '\n' ∉ name.toList := by
  cases h with
  | @keyword text label h =>
    rw [hkeywords, KeywordTable.label?_ofWords] at h
    split at h
    · rename_i hword
      cases h
      exact newline_not_mem_upper (hwords text (KeywordTable.contains_ofWords.1 hword))
    · cases h
  | @symbol text label h =>
    rw [hsymbols, (SymbolTable.lists_ofPairs pairs).label?_eq] at h
    obtain ⟨b, hb, rfl⟩ := Option.map_eq_some_iff.1 h
    obtain ⟨front, back, rfl, -⟩ := List.lookup_eq_some_iff.1 hb
    exact newline_not_mem_upper (hpairs (text, b) (by simp))
  | fixed h =>
    have hfixed : ∀ name ∈ fixedNames, '\n' ∉ name.toList := by decide
    exact hfixed name h

theorem Bundled.one_line {L : Language} (hL : L ∈ languages) {name : String} (h : L.Names name) :
    '\n' ∉ name.toList := by
  simp only [languages, List.mem_cons, List.not_mem_nil, or_false] at hL
  rcases hL with rfl | rfl | rfl
  · have hsymbols : Java.language.symbols = .ofPairs Java.symbols := by rw [Java.language]
    have hkeywords : Java.language.keywords = .ofWords Java.keywords := rfl
    exact h.one_line _ _ hsymbols hkeywords (by decide +kernel) (by decide +kernel)
  · have hsymbols : Python.language.symbols = .ofPairs Python.symbols := by rw [Python.language]
    have hkeywords : Python.language.keywords = .ofWords Python.keywords := rfl
    exact h.one_line _ _ hsymbols hkeywords (by decide +kernel) (by decide +kernel)
  · exact h.one_line [] [] rfl rfl (by simp) (by simp)

end LexTree
