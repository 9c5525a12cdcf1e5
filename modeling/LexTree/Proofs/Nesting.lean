import LexTree.Proofs.Bundled
import LexTree.Proofs.Leaves

/-!
# Java scopes and braces

The scopes of a tree can be read off its leaves alone: an opening brace opens a scope behind itself, and a closing brace
closes the innermost scope before it is appended (`Nesting`).  For Java this gives back the tree that was scanned.
Every scope that the scan opens or closes has its brace among the leaves of the same step, and no other leaf is a symbol
with the text of a brace: words, strings and comments follow other rules, and on a brace outside of them a boundary is
always found (`Java.nesting_step`).
-/

namespace LexTree

/-! ### Matching braces -/

def Leaf.isSymbol (l : Leaf) (text : String) : Bool := l.rule = .symbol && l.text = text

/-- The braces of a leaf sequence, matched. -/
structure Nesting where
  draft : Draft := {}
  /-- The closing braces met with no scope open. -/
  strays : List Leaf := []
deriving DecidableEq

namespace Nesting

/-- Take in a leaf. -/
def take (m : Nesting) (l : Leaf) : Nesting :=
  if l.isSymbol "\x7b" then { m with draft := (m.draft.push (.leaf l)).openScope l.line l.indent }
  else if l.isSymbol "\x7d" then
    { draft := m.draft.closeScope.push (.leaf l)
      strays := if m.draft.nested.isEmpty then m.strays ++ [l] else m.strays }
  else { m with draft := m.draft.push (.leaf l) }

def ofLeaves (leaves : List Leaf) : Nesting := leaves.foldl take {}

/-- The tree of a leaf sequence; scopes left open at the end are closed. -/
def nest (leaves : List Leaf) : Scope := (ofLeaves leaves).draft.finish

variable {l : Leaf} {leaves : List Leaf}

/-- A leaf that is no brace. -/
def Unbraced (l : Leaf) : Prop := l.isSymbol "\x7b" = false ∧ l.isSymbol "\x7d" = false

private theorem Unbraced.of_rule (h : l.rule ≠ .symbol) : Unbraced l := by
  simp [Unbraced, Leaf.isSymbol, h]

private theorem foldl_take_of_unbraced (h : ∀ l ∈ leaves, Unbraced l) (m : Nesting) :
    leaves.foldl take m = { m with draft := (leaves.map Event.leaf).foldl Draft.apply m.draft } := by
  induction leaves generalizing m with
  | nil => rfl
  | cons l leaves ih =>
    obtain ⟨hopen, hclose⟩ := h l (by simp)
    rw [List.foldl_cons, ih fun l hl => h l (by simp [hl])]
    simp [take, hopen, hclose, Draft.apply]

private theorem take_opening (m : Nesting) (h : l.isSymbol "\x7b" = true) :
    m.take l = { m with draft := (m.draft.push (.leaf l)).openScope l.line l.indent } := if_pos h

private theorem take_closing (m : Nesting) (h : l.isSymbol "\x7d" = true) :
    m.take l =
      { draft := m.draft.closeScope.push (.leaf l)
        strays := if m.draft.nested.isEmpty then m.strays ++ [l] else m.strays } := by
  have hopen : ¬ l.isSymbol "\x7b" = true := by
    intro ho
    simp only [Leaf.isSymbol, Bool.and_eq_true, decide_eq_true_eq] at h ho
    exact absurd (h.2.symm.trans ho.2) (by decide)
  rw [take, if_neg hopen, if_pos h]

end Nesting

/-! ### The braces of a step -/

namespace Java

open State Nesting

variable {o : Options} {s s' : State}

private theorem isSymbol_symbolLeaf (s : State) (name text : String) :
    (s.symbolLeaf name text).isSymbol text = true := by
  simp [Leaf.isSymbol, symbolLeaf]

private theorem unbraced_wordLeaves (s : State) (L : Language) : ∀ l ∈ s.wordLeaves L, Unbraced l := by
  intro l hl
  unfold wordLeaves at hl
  split at hl
  · cases hl
  · rw [List.mem_singleton.1 hl]
    exact .of_rule (by simp)

/-- A brace that delimits a scope is a symbol. -/
private theorem delimiterLeaves_brace (s : State) {brace : Char} (hb : brace = '\x7b' ∨ brace = '\x7d') :
    ∃ name, s.delimiterLeaves language (String.singleton brace) = [s.symbolLeaf name (String.singleton brace)] := by
  have hk : language.keywords.contains (String.singleton brace) = false := by
    apply KeywordTable.contains_ofWords_of_not_mem
    rcases hb with rfl | rfl <;> decide
  rcases hb with rfl | rfl <;> exact ⟨_, delimiterLeaves_singleton hk (by decide) (by decide) s⟩

/-- Where no boundary is found, no leaf is a brace. -/
private theorem unbraced_plainLeaf {n : Notes} {l : Leaf}
    (found : language.dispatch s.cursor s.notes.fresh = .ok none n) (h : s.PlainLeaf language l) : Unbraced l := by
  cases h with
  | word h => exact unbraced_wordLeaves s language l h
  | layout h =>
    have hrule : l.rule = .other := by
      simp only [Leaf.isLayout, Bool.and_eq_true, decide_eq_true_eq] at h
      exact h.1
    exact .of_rule (by simp [hrule])
  | @symbol c here line blank name =>
    rcases dispatch_cases s.cursor s.notes.fresh with
      ⟨quote, -, -, hd⟩ | ⟨-, hd⟩ | ⟨-, hd⟩ | ⟨-, hd⟩ | ⟨-, hd⟩ | ⟨hopen, hclose, -⟩
    all_goals try (rw [found] at hd; cases hd)
    have hne : ∀ brace : Char, s.cursor.current? ≠ some brace → String.singleton c ≠ String.singleton brace := by
      intro brace hb hc
      have hlist := congrArg String.toList hc
      simp only [String.toList_singleton, List.cons.injEq, and_true] at hlist
      exact hb (by rw [here, hlist])
    have hl : String.singleton c ≠ "\x7b" := hne '\x7b' hopen
    have hr : String.singleton c ≠ "\x7d" := hne '\x7d' hclose
    simp [Unbraced, Leaf.isSymbol, symbolLeaf, hl, hr]

/-- An opening that is found is an opening brace. -/
private theorem startMarker_of_scopeStart {c : Cursor} {n n' : Notes}
    (h : language.dispatch c n = .ok (some .scopeStart) n') : n'.startMarker = "\x7b" := by
  rcases dispatch_cases c n with
    ⟨quote, -, -, hd⟩ | ⟨-, hd⟩ | ⟨-, hd⟩ | ⟨-, hd⟩ | ⟨-, hd⟩ | ⟨-, -, hd⟩
  all_goals
    rw [h] at hd
    cases hd
  rfl

/-- A closing that is found is a closing brace. -/
private theorem endMarker_of_scopeEnd {c : Cursor} {n n' : Notes}
    (h : language.dispatch c n = .ok (some .scopeEnd) n') : n'.endMarker = "\x7d" := by
  rcases dispatch_cases c n with
    ⟨quote, -, -, hd⟩ | ⟨-, hd⟩ | ⟨-, hd⟩ | ⟨-, hd⟩ | ⟨-, hd⟩ | ⟨-, -, hd⟩
  all_goals
    rw [h] at hd
    cases hd
  rfl

/-- A step matches the braces among its leaves as it opens and closes scopes. -/
theorem nesting_step {new : List Event} {problems : List Diagnostic} (h : s.Emits language o new problems)
    (hd : s.cursor.depth = s.draft.nested.length) (strays : List Leaf) :
    ∃ more : List Leaf, (new.filterMap Event.leaf?).foldl take ⟨s.draft, strays⟩ =
        ⟨new.foldl Draft.apply s.draft, strays ++ more⟩ ∧
      more.map Leaf.line = (problems.filter (·.problem = .unbalancedScope)).map Diagnostic.line := by
  have hword := unbraced_wordLeaves s language
  have hnested : (((s.wordLeaves language).map Event.leaf).foldl Draft.apply s.draft).nested.length =
      s.cursor.depth := by
    rw [← Draft.length_frames, Draft.frames_foldl_leaves, Draft.length_frames, hd]
  cases h with
  | plain found each =>
    refine ⟨[], ?_, rfl⟩
    rw [Event.filterMap_leaf?_leaves, foldl_take_of_unbraced fun l hl => unbraced_plainLeaf found (each l hl)]
    simp
  | @construct b n problems found hb text cut =>
    have hnone : problems.filter (·.problem = .unbalancedScope) = [] := by
      rw [List.filter_eq_nil_iff]
      intro d hmem
      simp [cut d hmem]
    refine ⟨[], ?_, by rw [hnone]; rfl⟩
    rw [Event.filterMap_leaf?_leaves, foldl_take_of_unbraced]
    · simp
    · intro l hl
      rcases List.mem_append.1 hl with hl | hl
      · exact hword l hl
      · split at hl
        · rw [List.mem_singleton.1 hl]
          exact .of_rule (by simp [constructLeaf])
        · cases hl
  | @opened n found =>
    obtain ⟨name, hleaf⟩ : ∃ name, s.delimiterLeaves language "\x7b" = [s.symbolLeaf name "\x7b"] :=
      delimiterLeaves_brace s (Or.inl rfl)
    refine ⟨[], ?_, rfl⟩
    -- the brace comes right before the opening
    rw [startMarker_of_scopeStart found, hleaf]
    simp only [List.map_append, List.filterMap_append, Event.filterMap_leaf?_leaves, List.foldl_append,
      foldl_take_of_unbraced hword]
    simp only [List.filterMap_cons, List.filterMap_nil, Event.leaf?, List.map_cons, List.map_nil, List.foldl_cons,
      List.foldl_nil, take_opening _ (isSymbol_symbolLeaf s name _), Draft.apply, List.append_nil]
    rfl
  | @closed n found inner =>
    obtain ⟨name, hleaf⟩ : ∃ name, s.delimiterLeaves language "\x7d" = [s.symbolLeaf name "\x7d"] :=
      delimiterLeaves_brace s (Or.inr rfl)
    have hopen : (((s.wordLeaves language).map Event.leaf).foldl Draft.apply s.draft).nested ≠ [] := by
      rw [← List.length_pos_iff, hnested]
      omega
    refine ⟨[], ?_, rfl⟩
    -- the brace comes right behind the closing
    rw [endMarker_of_scopeEnd found, hleaf]
    simp only [List.filterMap_append, List.filterMap_cons, Event.leaf?, Event.filterMap_leaf?_leaves, List.foldl_append,
      List.foldl_cons, foldl_take_of_unbraced hword]
    simp [take_closing _ (isSymbol_symbolLeaf s name _), Draft.apply, hopen]
  | @stray n found outer =>
    obtain ⟨name, hleaf⟩ : ∃ name, s.delimiterLeaves language "\x7d" = [s.symbolLeaf name "\x7d"] :=
      delimiterLeaves_brace s (Or.inr rfl)
    have hclosed : (((s.wordLeaves language).map Event.leaf).foldl Draft.apply s.draft).nested = [] := by
      rw [← List.length_eq_zero_iff, hnested, outer]
    refine ⟨[s.symbolLeaf name "\x7d"], ?_, rfl⟩
    rw [endMarker_of_scopeEnd found, hleaf, Event.filterMap_leaf?_leaves, List.foldl_append,
      foldl_take_of_unbraced hword]
    simp [take_closing _ (isSymbol_symbolLeaf s name _), Draft.apply, hclosed, Draft.closeScope_of_nil hclosed]

/-! ### Runs -/

/-- Matching the braces among the leaves emitted so far gives the tree under construction, and the closing braces that
match none are those reported. -/
def Nested (s : State) : Prop :=
  ∃ strays : List Leaf, ofLeaves (s.events.toList.filterMap Event.leaf?) = ⟨s.draft, strays⟩ ∧
    strays.map Leaf.line = (s.diagnostics.toList.filter (·.problem = .unbalancedScope)).map Diagnostic.line

private theorem Nested.step (h : Nested s) (hd : s.cursor.depth = s.draft.nested.length)
    (hstep : s.step language o = .ok () s') : Nested s' := by
  obtain ⟨strays, hdraft, hlines⟩ := h
  obtain ⟨new, problems, hemits, he, hp⟩ := emits_step hstep
  obtain ⟨more, hnew, hmore⟩ := nesting_step hemits hd strays
  refine ⟨strays ++ more, ?_, ?_⟩
  · rw [he, List.filterMap_append, ofLeaves, List.foldl_append, ← ofLeaves, hdraft, hnew, draft_of_events he]
  · rw [hp, List.filter_append, List.map_append, List.map_append, hlines, hmore]

private theorem Nested.flush (h : Nested s) : Nested (s.flush language) := by
  obtain ⟨strays, hdraft, hlines⟩ := h
  have he := events_flush s language
  refine ⟨strays, ?_, ?_⟩
  · rw [he, List.filterMap_append, Event.filterMap_leaf?_leaves, ofLeaves, List.foldl_append, ← ofLeaves, hdraft,
      foldl_take_of_unbraced (unbraced_wordLeaves s language), draft_of_events he]
  · rw [diagnostics_flush, hlines]

private theorem nested_of_runs {text : String} {heads : List State} {t : State}
    (h : Runs language o (start text) heads t) : Nested t := by
  have key := h.invariant (P := fun u => Nested u ∧ u.cursor.depth = u.draft.nested.length) ⟨⟨[], rfl, rfl⟩, rfl⟩
    fun u u' hu _ hstep => ⟨hu.1.step hu.2 hstep, (log_step hstep hu.2).1⟩
  exact key.2.1

end Java

open State Nesting in
/-- A Java tree is the brace matching of its own leaves, and the closing braces that match none are, in order, those
reported as unbalanced. -/
theorem scan_java_nests {o : Options} (ho : o.validate = .ok ()) (text : String) :
    ∃ out, scan Java.language o text = .ok out ∧ nest out.root.flatten.toList = out.root ∧
      (ofLeaves out.root.flatten.toList).strays.map Leaf.line =
        (out.diagnostics.toList.filter (·.problem = .unbalancedScope)).map Diagnostic.line := by
  have hL : Java.language ∈ Bundled.languages := by simp [Bundled.languages]
  obtain ⟨heads, t, hr, -, hscan⟩ := scan_bundled hL ho text
  obtain ⟨strays, hdraft, hlines⟩ := (Java.nested_of_runs hr).flush
  have hleaves : (t.finish Java.language).root.flatten.toList =
      (t.flush Java.language).events.toList.filterMap Event.leaf? := Scope.flatten_ofEvents _
  refine ⟨_, hscan, ?_, ?_⟩
  · rw [hleaves, nest, hdraft]
    rfl
  · rw [hleaves, hdraft]
    exact hlines

open Nesting in
theorem scan_java_nests_stray :
    ∃ out, scan Java.language {} "\x7ba\x7b\"\x7d\"\x7d\x7d\n\x7d\x7b" = .ok out ∧
      out.diagnostics.toList.map Diagnostic.line = [2] ∧ nest out.root.flatten.toList = out.root ∧
      (ofLeaves out.root.flatten.toList).strays.map Leaf.line =
        (out.diagnostics.toList.filter (·.problem = .unbalancedScope)).map Diagnostic.line := by
  have hlines : (scan Java.language {} "\x7ba\x7b\"\x7d\"\x7d\x7d\n\x7d\x7b").toOption.map
      (fun out => out.diagnostics.toList.map Diagnostic.line) = some [2] := by
    decide +kernel
  obtain ⟨out, hscan, hnest, hstrays⟩ :=
    scan_java_nests (o := {}) rfl "\x7ba\x7b\"\x7d\"\x7d\x7d\n\x7d\x7b"
  rw [hscan] at hlines
  exact ⟨out, hscan, Option.some.inj hlines, hnest, hstrays⟩

end LexTree
