import LexTree.Proofs.MarkerPositions

/-!
# Scopes as token lists

All there is to a scope is its label and the list of its tokens: the marker positions are read off the list
(`TokenList.scope`).  An edit of the scope is an edit of the list.  It is refused exactly where the list has no such
position or range (`Edit.refusal?`), and otherwise it gives back a token of the list (`Edit.reply?`) and leaves a list
behind (`Edit.effect`); nothing else of the scope plays a part (`Indexed.perform_eq`).  An edit that is refused leaves
everything as it was (`eq_of_perform_error`), also at the end of a path (`eq_of_editAt_error`).  So a history of edits
on a scope is a history of edits on its list (`Indexed.performAll_eq`).
-/

namespace LexTree

/-- A leaf changed; a marker stays as it is. -/
def Token.mapLeaf (f : Leaf → Leaf) : Token → Token
  | leaf l => leaf (f l)
  | marker line indent scope => marker line indent scope

/-- A label and a list of tokens. -/
structure TokenList where
  label : String
  tokens : List Token

/-- The scope of a labelled list, with the positions of its markers. -/
def TokenList.scope (p : TokenList) : Scope :=
  ⟨p.label, p.tokens.toArray, Scope.markerPositions p.tokens.toArray⟩

@[simp] theorem TokenList.toList_tokens_scope (p : TokenList) : p.scope.tokens.toList = p.tokens := rfl

namespace Scope

/-- The label and the tokens of a scope. -/
def plain (s : Scope) : TokenList := ⟨s.label, s.tokens.toList⟩

/-! ### Edits of a list -/

namespace Edit

/-- Why an edit of a token list is refused, if it is. -/
def refusal? (ts : List Token) : Edit → Option ScopeError
  | insert _ index => if index ≤ ts.length then none else some (.indexOutOfRange index ts.length)
  | delete index => if index < ts.length then none else some (.indexOutOfRange index ts.length)
  | modifyLeaf index _ =>
    match ts[index]? with
    | some t => if t.isMarker then some (.notALeaf index) else none
    | none => some (.indexOutOfRange index ts.length)
  | scopify first last =>
    if first ≤ last ∧ last < ts.length then none else some (.invalidRange first last ts.length)
  | push _ | pop | append _ | relabel _ => none

/-- The token that an edit of a token list gives back, if it gives one. -/
def reply? (ts : List Token) : Edit → Option Token
  | delete index | modifyLeaf index _ => ts[index]?
  | pop => ts.getLast?
  | push _ | insert _ _ | scopify _ _ | append _ | relabel _ => none

/-- The marker that takes the place of the tokens from `first` to `last`. -/
def grouped (ts : List Token) (first last : Nat) : Option Token :=
  ts[first]?.map fun head => .marker head.line head.indent (ofTokens ((ts.take (last + 1)).drop first).toArray)

/-- What an edit makes of a token list. -/
def effect (ts : List Token) : Edit → List Token
  | push t => ts ++ [t]
  | insert t index => ts.insertIdx index t
  | delete index => ts.eraseIdx index
  | pop => ts.dropLast
  | scopify first last => ts.take first ++ (grouped ts first last).toList ++ ts.drop (last + 1)
  | append other => ts ++ other.tokens.toList
  | relabel _ => ts
  | modifyLeaf index f => ts.modify index (Token.mapLeaf f)

/-- The label after an edit. -/
def relabels (label : String) : Edit → String
  | relabel label' => label'
  | _ => label

end Edit

end Scope

namespace TokenList

open Scope (Edit)

/-- Edit a labelled list; an edit that is refused changes nothing. -/
def edit (p : TokenList) (e : Edit) : TokenList :=
  if (e.refusal? p.tokens).isSome then p else ⟨e.relabels p.label, e.effect p.tokens⟩

/-- What an edit of a labelled list answers. -/
def answer (p : TokenList) (e : Edit) : Except ScopeError (Option Token) :=
  match e.refusal? p.tokens with
  | some err => .error err
  | none => .ok (e.reply? p.tokens)

/-- The answers to a sequence of edits. -/
def answers (p : TokenList) : List Edit → List (Except ScopeError (Option Token))
  | [] => []
  | e :: es => p.answer e :: (p.edit e).answers es

private theorem edit_of_error {p : TokenList} {e : Edit} {err : ScopeError} (h : p.answer e = .error err) :
    p.edit e = p := by
  unfold answer at h
  split at h
  · rename_i hr
    rw [edit, hr]
    rfl
  · cases h

end TokenList

namespace Scope

/-- Make edits one after the other, each on what the one before it leaves, and collect what they answer. -/
def performAll (s : Scope) : List Edit → List (Except ScopeError (Option Token)) × Scope
  | [] => ([], s)
  | e :: es =>
    match e.perform s with
    | .ok reply s' => (.ok reply :: (s'.performAll es).1, (s'.performAll es).2)
    | .error err s' => (.error err :: (s'.performAll es).1, (s'.performAll es).2)

variable {s s' inner : Scope} {t : Token}

/-! ### A scope is its list -/

theorem indexed_scope (p : TokenList) : p.scope.Indexed := indexed_iff.2 rfl

/-- A scope whose positions are right is the scope of its label and tokens. -/
theorem Indexed.eq_scope (h : s.Indexed) {p : TokenList} (hl : s.label = p.label) (ht : s.tokens.toList = p.tokens) :
    s = p.scope := by
  obtain ⟨label, ⟨tokens⟩, children⟩ := s
  obtain ⟨label', tokens'⟩ := p
  have hc : children = markerPositions ⟨tokens⟩ := indexed_iff.1 h
  cases hl
  cases ht
  rw [hc]
  rfl

theorem length_tokens (s : Scope) : s.tokens.toList.length = s.size := Array.length_toList

/-! ### Edits of a scope -/

private theorem Indexed.push_eq (h : s.Indexed) (t : Token) :
    s.push t = (TokenList.mk s.label (s.tokens.toList ++ [t])).scope :=
  (h.push t).eq_scope (label_push s t) (toList_tokens_push s t)

private theorem Indexed.append_eq (h : s.Indexed) (other : Scope) :
    s.append other = (TokenList.mk s.label (s.tokens.toList ++ other.tokens.toList)).scope := by
  have hkept : ∀ (ts : List Token) (s : Scope), s.Indexed →
      (ts.foldl Scope.push s).Indexed ∧ (ts.foldl Scope.push s).label = s.label := by
    intro ts
    induction ts with
    | nil => exact fun s hs => ⟨hs, rfl⟩
    | cons t ts ih =>
      intro s hs
      obtain ⟨hi, hl⟩ := ih (s.push t) (hs.push t)
      exact ⟨hi, hl.trans (label_push s t)⟩
  obtain ⟨hi, hl⟩ := hkept other.tokens.toList s h
  rw [Array.foldl_toList] at hi hl
  exact Indexed.eq_scope hi hl (toList_tokens_append s other)

theorem Indexed.insert_eq (h : s.Indexed) (t : Token) {index : Nat} (hi : index ≤ s.size) :
    s.insert t index = .ok () (TokenList.mk s.label (s.tokens.toList.insertIdx index t)).scope := by
  rw [Scope.insert, if_neg (Nat.not_lt.2 hi)]
  split
  · rename_i heq
    rw [h.push_eq, heq, ← length_tokens, List.insertIdx_length_self]
  · have hle : index ≤ s.tokens.size := hi
    refine congrArg (EStateM.Result.ok ()) (Indexed.eq_scope (indexed_iff.2 rfl) rfl ?_)
    rw [Array.insertIdxIfInBounds, dif_pos hle, Array.toList_insertIdx]

theorem delete_eq {index : Nat} (ht : s.tokens.toList[index]? = some t) :
    s.delete index = .ok t (TokenList.mk s.label (s.tokens.toList.eraseIdx index)).scope := by
  rw [Array.getElem?_toList] at ht
  simp only [delete, ht]
  refine congrArg (EStateM.Result.ok t) (Indexed.eq_scope (indexed_iff.2 rfl) rfl ?_)
  exact Array.toList_eraseIdxIfInBounds

private theorem Indexed.pop_eq (h : s.Indexed) :
    s.pop = (s.tokens.toList.getLast?, (TokenList.mk s.label s.tokens.toList.dropLast).scope) := by
  have hi := h.pop
  rw [Array.getLast?_toList]
  cases ht : s.tokens.back? with
  | none =>
    have hempty : s.tokens = #[] := Array.back?_eq_none_iff.1 ht
    simp only [Scope.pop, ht] at hi ⊢
    exact congrArg (none, ·) (hi.eq_scope rfl (by simp [hempty]))
  | some t =>
    simp only [Scope.pop, ht] at hi ⊢
    exact congrArg (some t, ·) (hi.eq_scope rfl Array.toList_pop)

private theorem Indexed.modifyLeaf_eq (h : s.Indexed) {index : Nat} {l : Leaf} (f : Leaf → Leaf)
    (hl : s.tokens.toList[index]? = some (.leaf l)) :
    s.modifyLeaf index f =
      .ok l (TokenList.mk s.label (s.tokens.toList.modify index (Token.mapLeaf f))).scope := by
  rw [List.modify_eq_set_getElem?, hl]
  rw [Array.getElem?_toList] at hl
  simp only [modifyLeaf, hl]
  refine congrArg (EStateM.Result.ok l) (Indexed.eq_scope (h.set (t := .leaf (f l)) hl rfl) rfl ?_)
  exact Array.toList_setIfInBounds

theorem scopify_eq {first last : Nat} (h₁ : first ≤ last) (h₂ : last < s.size) :
    s.scopify first last =
      .ok () (TokenList.mk s.label ((Edit.scopify first last).effect s.tokens.toList)).scope := by
  have hlt : first < s.tokens.size := Nat.lt_of_le_of_lt h₁ h₂
  have hhead : s.tokens.toList[first]? = some s.tokens[first] := by
    rw [Array.getElem?_toList, Array.getElem?_eq_getElem hlt]
  rw [scopify, dif_pos ⟨h₁, h₂⟩]
  refine congrArg (EStateM.Result.ok ()) (Indexed.eq_scope (indexed_iff.2 rfl) rfl ?_)
  have hfront : (s.tokens.extract 0 first).toList = s.tokens.toList.take first := by
    rw [Array.toList_extract, List.extract_eq_take_drop, Nat.sub_zero, List.drop_zero]
  have hback : (s.tokens.extract (last + 1) s.tokens.size).toList = s.tokens.toList.drop (last + 1) := by
    rw [Array.toList_extract, List.extract_eq_take_drop, List.take_of_length_le (by simp)]
  have hmoved : s.tokens.extract first (last + 1) = ((s.tokens.toList.take (last + 1)).drop first).toArray := by
    rw [List.drop_take, ← List.extract_eq_take_drop, ← Array.toList_extract]
  simp only [Edit.effect, Edit.grouped, hhead, Option.map_some, Option.toList_some, ← hmoved, ← hfront, ← hback,
    Array.append_eq_append, Array.toList_append, Array.toList_push]

/-- An edit that the list refuses is refused, for the same reason. -/
private theorem perform_of_refused {e : Edit} {err : ScopeError} (hr : e.refusal? s.tokens.toList = some err) :
    e.perform s = .error err s := by
  cases e with
  | push t | pop | append other | relabel label => cases hr
  | insert t index =>
    simp only [Edit.refusal?, length_tokens] at hr
    split at hr
    · cases hr
    · rename_i hi
      cases hr
      rw [Edit.perform, Scope.insert, if_pos (Nat.lt_of_not_le hi)]
      rfl
  | delete index =>
    simp only [Edit.refusal?, length_tokens] at hr
    split at hr
    · cases hr
    · rename_i hi
      cases hr
      have hnone : s.tokens[index]? = none := Array.getElem?_eq_none (Nat.le_of_not_lt hi)
      simp only [Edit.perform, Scope.delete, hnone]
      rfl
  | scopify first last =>
    simp only [Edit.refusal?, length_tokens] at hr
    split at hr
    · cases hr
    · rename_i hi
      cases hr
      rw [Edit.perform, Scope.scopify, dif_neg (show ¬ (first ≤ last ∧ last < s.tokens.size) from hi)]
      rfl
  | modifyLeaf index f =>
    simp only [Edit.refusal?, length_tokens, Array.getElem?_toList] at hr
    rcases ht : s.tokens[index]? with _ | (l | ⟨line, indent, scope⟩)
    · rw [ht] at hr
      cases hr
      simp only [Edit.perform, Scope.modifyLeaf, ht]
      rfl
    · rw [ht] at hr
      cases hr
    · rw [ht] at hr
      cases hr
      simp only [Edit.perform, Scope.modifyLeaf, ht]
      rfl

/-- An edit that the list takes is made, as on the list. -/
private theorem Indexed.perform_of_taken (h : s.Indexed) {e : Edit} (hr : e.refusal? s.tokens.toList = none) :
    e.perform s =
      .ok (e.reply? s.tokens.toList) (TokenList.mk (e.relabels s.label) (e.effect s.tokens.toList)).scope := by
  cases e with
  | push t => exact congrArg (EStateM.Result.ok none) (h.push_eq t)
  | append other => exact congrArg (EStateM.Result.ok none) (h.append_eq other)
  | relabel label =>
    have hw : (s.withLabel label).Indexed := ⟨h.ascending, h.mem_iff⟩
    exact congrArg (EStateM.Result.ok none) (hw.eq_scope rfl rfl)
  | pop =>
    rw [Edit.perform, h.pop_eq]
    rfl
  | insert t index =>
    have hi : index ≤ s.size := by simpa [Edit.refusal?, size] using hr
    rw [Edit.perform, h.insert_eq t hi]
    rfl
  | delete index =>
    have hi : index < s.tokens.toList.length := by simpa [Edit.refusal?] using hr
    have ht := List.getElem?_eq_getElem hi
    rw [Edit.perform, delete_eq ht]
    simp only [Edit.reply?, ht]
    rfl
  | scopify first last =>
    have hi : first ≤ last ∧ last < s.size := by simpa [Edit.refusal?, size] using hr
    rw [Edit.perform, scopify_eq hi.1 hi.2]
    rfl
  | modifyLeaf index f =>
    rcases ht : s.tokens.toList[index]? with _ | (l | ⟨line, indent, scope⟩)
    · simp only [Edit.refusal?, ht] at hr
      cases hr
    · rw [Edit.perform, h.modifyLeaf_eq f ht]
      simp only [Edit.reply?, ht]
      rfl
    · simp only [Edit.refusal?, ht] at hr
      cases hr

/-- An edit of a scope answers and leaves what the edit of its list does. -/
theorem Indexed.perform_eq (h : s.Indexed) (e : Edit) :
    e.perform s = match s.plain.answer e with
      | .ok reply => .ok reply (s.plain.edit e).scope
      | .error err => .error err (s.plain.edit e).scope := by
  cases hr : e.refusal? s.tokens.toList with
  | some err =>
    rw [perform_of_refused hr, TokenList.answer, TokenList.edit]
    simp only [plain, hr]
    exact congrArg (EStateM.Result.error err) (h.eq_scope rfl rfl)
  | none =>
    rw [h.perform_of_taken hr, TokenList.answer, TokenList.edit]
    simp only [plain, hr]
    rfl

private theorem Indexed.exists_perform_eq_error_iff (h : s.Indexed) {e : Edit} {err : ScopeError} :
    (∃ s', e.perform s = .error err s') ↔ e.refusal? s.tokens.toList = some err := by
  cases hr : e.refusal? s.tokens.toList with
  | some err' => simp [perform_of_refused hr]
  | none => simp [h.perform_of_taken hr]

/-! ### Refusals -/

private theorem answering_eq_error {α β : Type} {f : α → β} {r : EStateM.Result ScopeError Scope α} {err : ScopeError}
    (h : answering f r = .error err s') : r = .error err s' := by
  cases r with
  | ok a s => cases h
  | error err s =>
    cases h
    rfl

private theorem eq_of_insert_error {index : Nat} {err : ScopeError} (h : s.insert t index = .error err s') :
    s' = s := by
  unfold insert at h
  split at h
  · cases h
    rfl
  · split at h <;> cases h

private theorem eq_of_delete_error {index : Nat} {err : ScopeError} (h : s.delete index = .error err s') : s' = s := by
  unfold delete at h
  split at h
  · cases h
  · cases h
    rfl

theorem eq_of_scopify_error {first last : Nat} {err : ScopeError} (h : s.scopify first last = .error err s') :
    s' = s := by
  unfold scopify at h
  split at h
  · cases h
  · cases h
    rfl

private theorem eq_of_modifyLeaf_error {index : Nat} {f : Leaf → Leaf} {err : ScopeError}
    (h : s.modifyLeaf index f = .error err s') : s' = s := by
  unfold modifyLeaf at h
  split at h
  · cases h
  all_goals
    cases h
    rfl

/-- An edit that is refused leaves the scope as it was: every test comes before the first change. -/
theorem eq_of_perform_error {e : Edit} {err : ScopeError} (h : e.perform s = .error err s') : s' = s := by
  cases e with
  | push t | pop | append other | relabel label => cases h
  | insert t index => exact eq_of_insert_error (answering_eq_error h)
  | delete index => exact eq_of_delete_error (answering_eq_error h)
  | scopify first last => exact eq_of_scopify_error (answering_eq_error h)
  | modifyLeaf index f => exact eq_of_modifyLeaf_error (answering_eq_error h)

private theorem setMarker_self {position : Nat} {line indent : UInt32}
    (ht : s.tokens[position]? = some (.marker line indent inner)) : s.setMarker position line indent inner = s := by
  obtain ⟨hlt, hget⟩ := Array.getElem?_eq_some_iff.1 ht
  have hsame : s.tokens.setIfInBounds position (.marker line indent inner) = s.tokens := by
    rw [Array.setIfInBounds_def, dif_pos hlt, ← hget, Array.set_getElem_self]
  rw [setMarker, hsame]
  cases s
  rfl

/-- An edit that leaves a scope as it was where it is refused does so below. -/
theorem eq_of_editAt_error {α : Type} {f : Scope → EStateM.Result ScopeError Scope α}
    (keep : ∀ s err s', f s = .error err s' → s' = s) (path : List Nat) {err : ScopeError}
    (h : s.editAt f path = .error err s') : s' = s := by
  induction path generalizing s s' with
  | nil => exact keep s err s' h
  | cons n path ih =>
    rw [Scope.editAt] at h
    split at h
    · rename_i position line indent inner hc
      cases hr : inner.editAt f path with
      | ok a inner' =>
        rw [hr] at h
        cases h
      | error err' inner' =>
        rw [hr] at h
        cases h
        -- the marker gets back the scope that it had
        rw [ih hr]
        exact setMarker_self (childEntry_eq_ok hc)
    · cases h
      rfl

/-! ### Histories of edits -/

private theorem performAll_of_error {e : Edit} {err : ScopeError} (he : e.perform s = .error err s') (es : List Edit) :
    s.performAll (e :: es) = (.error err :: (s.performAll es).1, (s.performAll es).2) := by
  rw [performAll, he, eq_of_perform_error he]

private theorem performAll_of_ok {e : Edit} {reply : Option Token} (he : e.perform s = .ok reply s') (es : List Edit) :
    s.performAll (e :: es) = (.ok reply :: (s'.performAll es).1, (s'.performAll es).2) := by
  rw [performAll, he]

/-- A history of edits on a scope is a history of edits on its list. -/
theorem Indexed.performAll_eq (h : s.Indexed) (es : List Edit) :
    s.performAll es = (s.plain.answers es, (es.foldl TokenList.edit s.plain).scope) := by
  induction es generalizing s with
  | nil => exact congrArg ([], ·) (h.eq_scope rfl rfl)
  | cons e es ih =>
    have hp := h.perform_eq e
    rw [TokenList.answers, List.foldl_cons]
    cases ha : s.plain.answer e with
    | error err =>
      have hsame : s.plain.edit e = s.plain := TokenList.edit_of_error ha
      rw [ha] at hp
      rw [performAll_of_error hp, ih h, hsame]
    | ok reply =>
      rw [ha] at hp
      rw [performAll_of_ok hp, ih (indexed_scope _)]
      rfl

private theorem ofSequences_eq (sequences : List (Array Token)) :
    ofSequences sequences = ofTokens (sequences.flatMap Array.toList).toArray := by
  have hfold : ofSequences sequences = empty.append (ofTokens (sequences.flatMap Array.toList).toArray) := by
    simp only [ofSequences, append, ofTokens, ← Array.foldl_toList, List.foldl_flatMap]
  rw [hfold, Indexed.append_eq (indexed_iff.2 rfl)]
  rfl

/-- A scope is its label and a list of tokens.  Each edit is refused exactly where the list has no such position or
range, with an error that names it and the length of the list, or the position where a marker stands in place of a leaf;
any other edit gives back the token and leaves the list that the same edit of the list does.  An edit that is refused,
here or at the end of a path, leaves the whole scope as it was, and the edits after it meet the same scope.  So it is
for histories of edits: what they answer and what is left, positions included, is that of the edited list.  Building a
scope from several sequences is building it from all their tokens. -/
theorem made_performs (h : s.Made) :
    (∀ (e : Edit) err, (∃ s', e.perform s = .error err s') ↔ e.refusal? s.tokens.toList = some err) ∧
    (∀ e : Edit, e.refusal? s.tokens.toList = none →
      e.perform s =
        .ok (e.reply? s.tokens.toList) (TokenList.mk (e.relabels s.label) (e.effect s.tokens.toList)).scope) ∧
    (∀ (e : Edit) err s', e.perform s = .error err s' → s' = s) ∧
    (∀ (path : List Nat) (e : Edit) err s',
      s.editAt (fun inner => e.perform inner) path = .error err s' → s' = s) ∧
    (∀ (e : Edit) err s' es, e.perform s = .error err s' →
      s.performAll (e :: es) = (.error err :: (s.performAll es).1, (s.performAll es).2)) ∧
    (∀ es, s.performAll es = (s.plain.answers es, (es.foldl TokenList.edit s.plain).scope)) ∧
    ∀ sequences, ofSequences sequences = ofTokens (sequences.flatMap Array.toList).toArray := by
  have hi := h.sound.here
  refine ⟨fun e err => hi.exists_perform_eq_error_iff, fun e => hi.perform_of_taken, ?_, ?_, ?_, hi.performAll_eq,
    ofSequences_eq⟩
  · intro e err s' he
    exact eq_of_perform_error he
  · intro path e err s' he
    exact eq_of_editAt_error (fun _ _ _ => eq_of_perform_error) path he
  · intro e err s' es he
    exact performAll_of_error he es

/-- Three of five edits do not fit, and the scope that is left holds the marker alone. -/
theorem made_performs_refusals :
    ∃ s : Scope, s.Made ∧
      s.performAll [.insert (.leaf (.plain "c" 2 0)) 9, .delete 0, .modifyLeaf 0 id, .pop, .scopify 1 3] =
        ([.error (.indexOutOfRange 9 3), .ok (some (.leaf (.plain "a" 1 0))), .error (.notALeaf 0),
            .ok (some (.leaf (.plain "b" 2 0))), .error (.invalidRange 1 3 1)],
          ofTokens #[.marker 1 0 (labelled "L")]) := by
  have hmarker : ∀ inner, (Token.marker 1 0 (labelled "L")).scope? = some inner → inner.Made := by
    intro inner hi
    cases hi
    exact .labelled "L"
  have hmade := (((Made.labelled unknownLabel).push (t := .leaf (.plain "a" 1 0)) nofun).push hmarker).push
    (t := .leaf (.plain "b" 2 0)) nofun
  obtain ⟨-, -, -, -, -, hall, -⟩ := made_performs hmade
  refine ⟨_, hmade, ?_⟩
  rw [hall]
  rfl

end Scope

end LexTree
