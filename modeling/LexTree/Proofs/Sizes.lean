import LexTree.Proofs.Bundled
import LexTree.Proofs.MarkerPositions
import Mathlib.Algebra.GroupWithZero.Nat

/-!
# Leaves and sizes

The leaves of a tree are read off it depth first.  Flattening collects exactly them, and their number can be found
without looking at them: a scope has as many leaves as it has tokens, less its markers, and the scopes inside have the
rest.  The markers are counted by their kept positions, so this needs the positions to be right at every level
(`Sound.totalSize_eq`).  The tree of a scan is a scope that was made (`made_ofEvents`).
-/

namespace LexTree

mutual

/-- The leaves of a token, depth first. -/
def Token.leaves : Token → List Leaf
  | .leaf l => [l]
  | .marker _ _ scope => scope.leaves

/-- The leaves of a scope, depth first. -/
def Scope.leaves : Scope → List Leaf
  | ⟨_, ⟨tokens⟩, _⟩ => Token.leavesList tokens

/-- The leaves of a token sequence, depth first. -/
def Token.leavesList : List Token → List Leaf
  | [] => []
  | t :: ts => t.leaves ++ Token.leavesList ts

end

private theorem Token.leavesList_eq_flatMap (ts : List Token) : leavesList ts = ts.flatMap leaves := by
  induction ts with
  | nil => rfl
  | cons t ts ih => rw [leavesList, ih, List.flatMap_cons]

theorem Scope.leaves_eq_flatMap (s : Scope) : s.leaves = s.tokens.toList.flatMap Token.leaves := by
  obtain ⟨label, ⟨tokens⟩, children⟩ := s
  exact Token.leavesList_eq_flatMap tokens

/-! ### Flattening -/

mutual

private theorem Token.toList_flattenOnto (out : Array Leaf) :
    (t : Token) → (t.flattenOnto out).toList = out.toList ++ t.leaves
  | .leaf l => by simp [Token.flattenOnto, Token.leaves]
  | .marker _ _ scope => Scope.toList_flattenOnto out scope

private theorem Scope.toList_flattenOnto (out : Array Leaf) :
    (s : Scope) → (s.flattenOnto out).toList = out.toList ++ s.leaves
  | ⟨_, ⟨tokens⟩, _⟩ => Token.toList_flattenListOnto out tokens

private theorem Token.toList_flattenListOnto (out : Array Leaf) :
    (ts : List Token) → (Token.flattenListOnto out ts).toList = out.toList ++ Token.leavesList ts
  | [] => by simp [Token.flattenListOnto, Token.leavesList]
  | t :: ts => by
    rw [Token.flattenListOnto, Token.toList_flattenListOnto (t.flattenOnto out) ts, Token.toList_flattenOnto out t,
      Token.leavesList, List.append_assoc]

end

namespace Scope

variable {s other : Scope} {t : Token}

theorem toList_flatten (s : Scope) : s.flatten.toList = s.leaves := toList_flattenOnto #[] s

theorem flatten_eq_iff : s.flatten = other.flatten ↔ s.leaves = other.leaves := by
  rw [← Array.toList_inj, toList_flatten, toList_flatten]

private theorem leaves_append (s other : Scope) : (s.append other).leaves = s.leaves ++ other.leaves := by
  rw [leaves_eq_flatMap, toList_tokens_append, List.flatMap_append, ← leaves_eq_flatMap, ← leaves_eq_flatMap]

/-! ### Counting by the kept positions -/

/-- Each position adds the size of the scope found there. -/
private theorem totalSize_eq_foldl (s : Scope) :
    s.totalSize =
      s.children.toList.foldl (fun n position => n + (s.tokens[position]?.bind Token.scope?).elim 0 totalSize)
        (s.size - s.children.size) := by
  rw [totalSize, ← Array.foldl_toList]
  congr 1
  funext n position
  split
  · rename_i line indent scope hp
    rw [hp]
    rfl
  · rename_i hp
    rcases hq : s.tokens[position]? with _ | (l | ⟨line, indent, scope⟩)
    · rfl
    · rfl
    · exact absurd hq (hp line indent scope)

private theorem foldl_add (f : Nat → Nat) (xs : List Nat) (n : Nat) :
    xs.foldl (fun n x => n + f x) n = n + (xs.map f).sum := by
  induction xs generalizing n with
  | nil => rfl
  | cons x xs ih => rw [List.foldl_cons, ih, List.map_cons, List.sum_cons, Nat.add_assoc]

/-- The size is found from the number of tokens, the number of positions and the sizes of the scopes inside. -/
private theorem Indexed.totalSize_eq (h : s.Indexed) :
    s.totalSize = s.size - s.children.size + (s.nested.map totalSize).sum := by
  have hmap := map_scope?_markerPositions s.tokens
  rw [← indexed_iff.1 h] at hmap
  have hsizes := congrArg (List.map fun inner? : Option Scope => inner?.elim 0 totalSize) hmap
  rw [List.map_map, List.map_map] at hsizes
  rw [totalSize_eq_foldl, foldl_add]
  exact congrArg (fun sizes : List Nat => s.size - s.children.size + sizes.sum) hsizes

/-- Every token is a leaf, or a marker with the leaves of its scope. -/
private theorem length_leavesList (ts : List Token) :
    (Token.leavesList ts).length + (ts.filterMap Token.scope?).length =
      ts.length + ((ts.filterMap Token.scope?).map fun inner => inner.leaves.length).sum := by
  induction ts with
  | nil => rfl
  | cons t ts ih =>
    cases t with
    | leaf l =>
      simp only [Token.leavesList, Token.leaves, Token.scope?, List.filterMap_cons, List.length_append,
        List.length_cons, List.length_nil]
      omega
    | marker line indent scope =>
      simp only [Token.leavesList, Token.leaves, Token.scope?, List.filterMap_cons, List.length_append,
        List.length_cons, List.map_cons, List.sum_cons]
      omega

private theorem Indexed.size_children_le (h : s.Indexed) : s.children.size ≤ s.size := by
  rw [h.size_children, nested, size, ← Array.length_toList]
  exact List.length_filterMap_le ..

/-- The size of a sound scope is the number of its leaves. -/
theorem Sound.totalSize_eq (h : s.Sound) : s.totalSize = s.leaves.length := by
  induction h with
  | @mk s here inside ih =>
    have hnested : s.nested.map totalSize = s.nested.map fun inner => inner.leaves.length := by
      refine List.map_congr_left fun inner hi => ?_
      obtain ⟨t, ht, hscope⟩ := List.mem_filterMap.1 hi
      exact ih t (Array.mem_toList_iff.1 ht) inner hscope
    have hcount := length_leavesList s.tokens.toList
    have htokens : s.tokens.toList.length = s.size := Array.length_toList
    have hchildren := here.size_children
    have hle := here.size_children_le
    rw [Token.leavesList_eq_flatMap, ← leaves_eq_flatMap, ← nested, ← hnested] at hcount
    rw [here.totalSize_eq]
    omega

end Scope

/-! ### Trees of histories -/

namespace Draft

/-- The scopes of a draft were made. -/
structure Made (d : Draft) : Prop where
  root : d.root.Made
  nested : ∀ p ∈ d.nested, p.scope.Made

private theorem Made.push {d : Draft} (h : d.Made) {t : Token} (ht : ∀ inner, t.scope? = some inner → inner.Made) :
    (d.push t).Made := by
  obtain ⟨root, _ | ⟨⟨scope, line, indent⟩, rest⟩⟩ := d
  · exact ⟨h.root.push ht, by simp [Draft.push]⟩
  · refine ⟨h.root, fun p hp => ?_⟩
    rcases List.mem_cons.1 hp with rfl | hp
    · exact (h.nested _ List.mem_cons_self).push ht
    · exact h.nested p (List.mem_cons_of_mem _ hp)

private theorem Made.apply {d : Draft} (h : d.Made) (e : Event) : (d.apply e).Made := by
  cases e with
  | leaf l => exact h.push nofun
  | opened line indent =>
    refine ⟨h.root, fun p hp => ?_⟩
    rcases List.mem_cons.1 hp with rfl | hp
    · exact .labelled Scope.unknownLabel
    · exact h.nested p hp
  | closed =>
    obtain ⟨root, _ | ⟨⟨scope, line, indent⟩, rest⟩⟩ := d
    · exact h
    · have hrest : (Draft.mk root rest).Made := ⟨h.root, fun p hp => h.nested p (List.mem_cons_of_mem _ hp)⟩
      refine hrest.push fun inner hi => ?_
      cases hi
      exact h.nested _ List.mem_cons_self

private theorem Made.finish {d : Draft} (h : d.Made) : d.finish.Made := by
  have hclose : ∀ (nested : List OpenScope) (t : Token), (∀ inner, t.scope? = some inner → inner.Made) →
      (∀ p ∈ nested, p.scope.Made) → (closeWith d.root t nested).Made := by
    intro nested
    induction nested with
    | nil => exact fun t ht _ => h.root.push ht
    | cons p rest ih =>
      intro t ht hn
      refine ih _ (fun inner hi => ?_) fun q hq => hn q (List.mem_cons_of_mem _ hq)
      cases hi
      exact (hn p List.mem_cons_self).push ht
  obtain ⟨root, _ | ⟨⟨scope, line, indent⟩, rest⟩⟩ := d
  · exact h.root
  · refine hclose rest _ (fun inner hi => ?_) fun q hq => h.nested q (List.mem_cons_of_mem _ hq)
    cases hi
    exact h.nested _ List.mem_cons_self

end Draft

/-- The tree of a history is a scope that was made. -/
theorem Scope.made_ofEvents (events : Array Event) : (Scope.ofEvents events).Made := by
  have hfold : ∀ (es : List Event) (d : Draft), d.Made → (es.foldl Draft.apply d).Made := by
    intro es
    induction es with
    | nil => exact fun d h => h
    | cons e es ih => exact fun d h => ih _ (h.apply e)
  rw [Scope.ofEvents, Draft.ofEvents, ← Array.foldl_toList]
  exact (hfold events.toList {} ⟨.labelled Scope.fileLabel, by simp⟩).finish

namespace Scope

variable {s : Scope}

/-- Sizes and flattening agree.  In a scope that was made and in every scope below, there are no more positions than
tokens, so the size is a true difference; it is the number of leaves that a walk meets, depth first, and flattening
gives these leaves in order.  Appending a scope adds sizes and leaves, and without nested scopes every token is a
leaf. -/
theorem made_totalSize (h : s.Made) :
    (∀ place t, (place, t) ∈ s.levels →
      t.children.size ≤ t.size ∧ t.totalSize = t.size - t.children.size + (t.nested.map totalSize).sum) ∧
    s.totalSize = s.flatten.size ∧ s.totalSize = s.leaves.length ∧ s.flatten.toList = s.leaves ∧
    (∀ other : Scope, other.Made →
      (s.append other).totalSize = s.totalSize + other.totalSize ∧
        (s.append other).flatten = s.flatten ++ other.flatten) ∧
    (s.childCount = 0 → s.totalSize = s.size) := by
  have hsize := h.sound.totalSize_eq
  refine ⟨?_, ?_, hsize, toList_flatten s, ?_, ?_⟩
  · intro place t hmem
    have ht : t.Indexed := (sound_of_mem_levelsAt s none h.sound (place, t) hmem).here
    exact ⟨ht.size_children_le, ht.totalSize_eq⟩
  · rw [hsize, ← toList_flatten, Array.length_toList]
  · intro other ho
    constructor
    · rw [(h.append ho).sound.totalSize_eq, hsize, ho.sound.totalSize_eq, leaves_append, List.length_append]
    · rw [← Array.toList_inj, Array.toList_append, toList_flatten, toList_flatten, toList_flatten, leaves_append]
  · intro hnone
    have hchildren : s.children.size = 0 := hnone
    have hnested : s.nested = [] := List.length_eq_zero_iff.1 (h.sound.here.size_children ▸ hchildren)
    rw [h.sound.here.totalSize_eq, hchildren, hnested]
    rfl

/-- The tree of a scan, with a block inside a block. -/
theorem made_totalSize_scan :
    ∃ out, scan Python.language {} "if a:\n    if b:\n        c\nd" = .ok out ∧ out.root.Made ∧
      out.root.childCount = 1 ∧ out.root.totalSize = 8 ∧ out.root.flatten.toList = out.root.leaves := by
  have hL : Python.language ∈ Bundled.languages := by simp [Bundled.languages]
  obtain ⟨_, t, _, _, hscan⟩ := scan_bundled (o := {}) hL rfl "if a:\n    if b:\n        c\nd"
  have hcount : (scan Python.language {} "if a:\n    if b:\n        c\nd").toOption.map
      (fun out => (out.root.childCount, out.root.leaves.length)) = some (1, 8) := by decide +kernel
  rw [hscan] at hcount
  obtain ⟨hchildren, hleaves⟩ := Prod.mk.inj (Option.some.inj hcount)
  have hmade : (t.finish Python.language).root.Made := made_ofEvents _
  obtain ⟨-, -, hsize, hflatten, -⟩ := made_totalSize hmade
  exact ⟨_, hscan, hmade, hchildren, hsize.trans hleaves, hflatten⟩

end Scope

end LexTree
