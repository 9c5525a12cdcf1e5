import LexTree.Proofs.Sizes
import LexTree.Proofs.TokenLists

/-!
# Regrouping

Tokens that are moved into a nested scope are still there, behind a marker.  Putting them back in the place of the
marker gives the scope as it was (`delete_insertAll`), and the leaves stay the same, in the same order, whatever is
regrouped anywhere in a tree (`leaves_editAt`, `leaves_regroup`).
-/

namespace LexTree

namespace Scope

/-- Insert tokens one after the other, the first of them before position `index`. -/
def insertAll (s : Scope) (index : Nat) : List Token → EStateM.Result ScopeError Scope Unit
  | [] => .ok () s
  | t :: ts =>
    match s.insert t index with
    | .ok () s => s.insertAll (index + 1) ts
    | .error e s => .error e s

/-- Regroup ranges of tokens one after the other, each in the scope at the end of a path; a range that does not fit is
left as it is. -/
def regroup (s : Scope) (ranges : List (List Nat × Nat × Nat)) : Scope :=
  ranges.foldl (fun s (path, first, last) => s.edit path (.scopify first last)) s

variable {s s' : Scope} {front back : List Token}

/-! ### Putting tokens back -/

private theorem insertIdx_append_cons (front back : List Token) (t : Token) :
    (front ++ back).insertIdx front.length t = front ++ t :: back := by
  induction front with
  | nil => rfl
  | cons u front ih => rw [List.cons_append, List.length_cons, List.insertIdx_succ_cons, ih, List.cons_append]

/-- Tokens that are inserted one after the other stand together. -/
private theorem Indexed.insertAll_eq (h : s.Indexed) (ts : List Token) (hs : s.tokens.toList = front ++ back) :
    s.insertAll front.length ts = .ok () (TokenList.mk s.label (front ++ ts ++ back)).scope := by
  induction ts generalizing s front with
  | nil =>
    rw [List.append_nil, ← hs]
    exact congrArg (EStateM.Result.ok ()) (h.eq_scope rfl rfl)
  | cons t ts ih =>
    have hle : front.length ≤ s.size := by
      rw [← length_tokens, hs, List.length_append]
      exact Nat.le_add_right _ _
    have hnext : (TokenList.mk s.label (front ++ t :: back)).scope.insertAll (front ++ [t]).length ts =
        .ok () (TokenList.mk s.label (front ++ [t] ++ ts ++ back)).scope := ih (indexed_scope _) (by simp)
    rw [insertAll, h.insert_eq t hle, hs, insertIdx_append_cons]
    show insertAll _ (front.length + 1) ts = _
    simpa using hnext

/-- A list is what stands before a range, the range, and what stands behind. -/
private theorem take_append_range {ts : List Token} {first last : Nat} (h : first ≤ last) :
    ts.take first ++ (ts.take (last + 1)).drop first ++ ts.drop (last + 1) = ts := by
  have hfront : ts.take first = (ts.take (last + 1)).take first := by
    rw [List.take_take, Nat.min_eq_left (by omega)]
  rw [hfront, List.take_append_drop, List.take_append_drop]

private theorem exists_scopify_iff {first last : Nat} :
    (∃ s', s.scopify first last = .ok () s') ↔ first ≤ last ∧ last < s.size := by
  constructor
  · rintro ⟨s', h⟩
    by_contra hn
    rw [scopify, dif_neg (show ¬ (first ≤ last ∧ last < s.tokens.size) from hn)] at h
    cases h
  · rintro ⟨h₁, h₂⟩
    exact ⟨_, scopify_eq h₁ h₂⟩

/-- Regrouping puts a marker, with the line and indent of the first token moved, in the place of a range. -/
private theorem scopify_cases {first last : Nat} (h : s.scopify first last = .ok () s') :
    first ≤ last ∧ ∃ head, s.tokens.toList[first]? = some head ∧
      s' = (TokenList.mk s.label (s.tokens.toList.take first ++
        .marker head.line head.indent (ofTokens ((s.tokens.toList.take (last + 1)).drop first).toArray) ::
          s.tokens.toList.drop (last + 1))).scope := by
  obtain ⟨h₁, h₂⟩ := exists_scopify_iff.1 ⟨s', h⟩
  have hlt : first < s.tokens.toList.length := by
    rw [length_tokens]
    omega
  have hhead := List.getElem?_eq_getElem hlt
  refine ⟨h₁, _, hhead, ?_⟩
  rw [scopify_eq h₁ h₂] at h
  injection h with _ h
  rw [← h]
  simp only [Edit.effect, Edit.grouped, hhead, Option.map_some, Option.toList_some, List.append_assoc,
    List.singleton_append]

/-- A marker that is taken out can give way to tokens. -/
theorem delete_insertAll {p : TokenList} {marker : Token} (hp : p.tokens = front ++ marker :: back) (ts : List Token) :
    ∃ rest, p.scope.delete front.length = .ok marker rest ∧
      rest.insertAll front.length ts = .ok () (TokenList.mk p.label (front ++ ts ++ back)).scope := by
  have hget : p.scope.tokens.toList[front.length]? = some marker := by simp [hp]
  refine ⟨_, delete_eq hget, Indexed.insertAll_eq (indexed_scope _) ts ?_⟩
  simp [hp, List.eraseIdx_append_of_length_le]

/-! ### Leaves -/

/-- A token may give way to one with the same leaves. -/
private theorem leaves_set {i : Nat} {t u : Token} (hu : s.tokens[i]? = some u) (hleaves : t.leaves = u.leaves) :
    leaves { s with tokens := s.tokens.setIfInBounds i t } = s.leaves := by
  have hget : (s.tokens.toList.map Token.leaves)[i]? = some u.leaves := by
    rw [List.getElem?_map, Array.getElem?_toList, hu, Option.map_some]
  obtain ⟨hi, hget⟩ := List.getElem?_eq_some_iff.1 hget
  simp only [leaves_eq_flatMap, Array.toList_setIfInBounds, List.flatMap_def, List.map_set, hleaves]
  rw [← hget, List.set_getElem_self]

/-- An edit that keeps the leaves of a scope keeps those of the trees around it. -/
theorem leaves_editAt {α : Type} {f : Scope → EStateM.Result ScopeError Scope α}
    (keep : ∀ s, (left (f s)).leaves = s.leaves) (path : List Nat) (s : Scope) :
    (left (s.editAt f path)).leaves = s.leaves := by
  induction path generalizing s with
  | nil => exact keep s
  | cons n path ih =>
    rw [editAt]
    split
    · rename_i position line indent inner hc
      rw [left_around]
      exact leaves_set (childEntry_eq_ok hc) (ih inner)
    · rfl

private theorem leaves_scopify (s : Scope) (first last : Nat) : (left (s.scopify first last)).leaves = s.leaves := by
  cases hs : s.scopify first last with
  | error err s' =>
    rw [eq_of_scopify_error hs, left]
  | ok u s' =>
    obtain ⟨hle, head, -, rfl⟩ := scopify_cases hs
    rw [left, leaves_eq_flatMap, leaves_eq_flatMap, TokenList.toList_tokens_scope, List.flatMap_append,
      List.flatMap_cons, Token.leaves, leaves_eq_flatMap, ofTokens, ← List.append_assoc, ← List.flatMap_append,
      ← List.flatMap_append, take_append_range hle]

private theorem leaves_edit_scopify (s : Scope) (path : List Nat) (first last : Nat) :
    (s.edit path (.scopify first last)).leaves = s.leaves := by
  refine leaves_editAt (fun s => ?_) path s
  rw [Edit.perform, left_answering]
  exact leaves_scopify s first last

/-! ### Sequences of regroupings -/

theorem leaves_regroup (s : Scope) (ranges : List (List Nat × Nat × Nat)) : (s.regroup ranges).leaves = s.leaves := by
  induction ranges generalizing s with
  | nil => rfl
  | cons range ranges ih =>
    obtain ⟨path, first, last⟩ := range
    exact (ih (s.edit path (.scopify first last))).trans (leaves_edit_scopify s path first last)

private theorem Made.regroup (h : s.Made) (ranges : List (List Nat × Nat × Nat)) : (s.regroup ranges).Made := by
  induction ranges generalizing s with
  | nil => exact h
  | cons range ranges ih =>
    obtain ⟨path, first, last⟩ := range
    exact ih (h.edit path (.scopify first last) (by simp [Edit.brings]))

/-- Regrouping loses no token.  A range is regrouped exactly if it is a range of positions; then a marker with the line
and indent of the first token stands in its place, the tokens of the range are those of the marker's scope, and putting
them back where the marker stood gives the scope as it was.  However often and wherever in the tree ranges are
regrouped, the leaves and their number stay the same. -/
theorem made_regroup (h : s.Made) :
    (∀ first last, (∃ s', s.scopify first last = .ok () s') ↔ first ≤ last ∧ last < s.size) ∧
    (∀ first last s', s.scopify first last = .ok () s' →
      ∃ head inner rest, s.tokens[first]? = some head ∧ s'.label = s.label ∧
        s'.tokens.toList = s.tokens.toList.take first ++
          .marker head.line head.indent inner :: s.tokens.toList.drop (last + 1) ∧
        inner.tokens.toList = (s.tokens.toList.take (last + 1)).drop first ∧
        s'.delete first = .ok (.marker head.line head.indent inner) rest ∧
        rest.insertAll first inner.tokens.toList = .ok () s) ∧
    ∀ ranges, (s.regroup ranges).flatten = s.flatten ∧ (s.regroup ranges).totalSize = s.totalSize := by
  refine ⟨fun first last => exists_scopify_iff, ?_, ?_⟩
  · intro first last s' hs
    obtain ⟨hle, head, hhead, rfl⟩ := scopify_cases hs
    have hlength : (s.tokens.toList.take first).length = first :=
      List.length_take_of_le (Nat.le_of_lt (List.getElem?_eq_some_iff.1 hhead).1)
    obtain ⟨rest, hdelete, hinsert⟩ := delete_insertAll
      (p := ⟨s.label, s.tokens.toList.take first ++
        .marker head.line head.indent (ofTokens ((s.tokens.toList.take (last + 1)).drop first).toArray) ::
          s.tokens.toList.drop (last + 1)⟩) rfl ((s.tokens.toList.take (last + 1)).drop first)
    rw [hlength] at hdelete hinsert
    refine ⟨head, _, rest, by rwa [Array.getElem?_toList] at hhead, rfl, rfl, rfl, hdelete, ?_⟩
    rw [take_append_range hle] at hinsert
    exact hinsert.trans (congrArg (EStateM.Result.ok ()) (h.sound.here.eq_scope rfl rfl).symm)
  · intro ranges
    have hleaves := leaves_regroup s ranges
    refine ⟨flatten_eq_iff.2 hleaves, ?_⟩
    rw [(h.regroup ranges).sound.totalSize_eq, h.sound.totalSize_eq, hleaves]

/-- A range that holds a marker is regrouped, then a range below it; one that does not fit is left. -/
theorem made_regroup_below :
    ∃ s : Scope, s.Made ∧ (∃ s', s.scopify 0 1 = .ok () s') ∧
      (s.regroup [([], 0, 1), ([0], 1, 7), ([0, 0], 0, 0)]).levels.map (fun level => level.2.size) = [2, 2, 1, 1] ∧
      (s.regroup [([], 0, 1), ([0], 1, 7), ([0, 0], 0, 0)]).flatten = s.flatten := by
  have hinner : ((labelled "L").push (.leaf (.plain "b" 1 0))).Made := (Made.labelled "L").push nofun
  have hmarker : ∀ inner, (Token.marker 1 0 ((labelled "L").push (.leaf (.plain "b" 1 0)))).scope? = some inner →
      inner.Made := by
    intro inner hi
    cases hi
    exact hinner
  have hmade := (((Made.labelled unknownLabel).push (t := .leaf (.plain "a" 1 0)) nofun).push hmarker).push
    (t := .leaf (.plain "c" 2 0)) nofun
  obtain ⟨hfits, -, hkept⟩ := made_regroup hmade
  exact ⟨_, hmade, (hfits 0 1).2 (by decide), by decide +kernel, (hkept _).1⟩

end Scope

end LexTree
