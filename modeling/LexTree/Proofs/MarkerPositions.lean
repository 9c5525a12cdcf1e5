import LexTree.Proofs.Levels
import Mathlib.Data.List.Induction
import Mathlib.Data.List.Sort

/-!
# Marker positions

A scope keeps the positions of its markers beside its tokens.  Appending and popping change them by one entry, other
edits read them off the tokens again; either way they stay the positions of the markers, in ascending order (`Indexed`).
A scope is sound if this holds of it and of every scope below.  Every edit leaves scopes sound, also one made below at
the end of a path (`Sound.editAt`); so whatever is made is sound, nested scopes are found by their number, and nothing
but labels and tokens tells two scopes apart (`eq_of_bare_eq`).
-/

namespace LexTree

namespace Scope

/-- The positions kept beside the tokens are those of the markers, in ascending order. -/
structure Indexed (s : Scope) : Prop where
  ascending : s.children.toList.Pairwise (· < ·)
  mem_iff : ∀ i, i ∈ s.children ↔ ∃ t, s.tokens[i]? = some t ∧ t.isMarker = true

/-- The scopes directly inside, in order. -/
def nested (s : Scope) : List Scope := s.tokens.toList.filterMap Token.scope?

/-! ### Positions read off the tokens -/

private theorem toList_markerPositions (tokens : Array Token) :
    (markerPositions tokens).toList = (List.range tokens.size).filter fun i => tokens[i]?.any Token.isMarker := by
  simp [markerPositions]

private theorem mem_markerPositions {tokens : Array Token} {i : Nat} :
    i ∈ markerPositions tokens ↔ ∃ t, tokens[i]? = some t ∧ t.isMarker = true := by
  rw [← Array.mem_toList_iff, toList_markerPositions, List.mem_filter, List.mem_range, Option.any_eq_true]
  constructor
  · rintro ⟨-, t, ht, hm⟩
    exact ⟨t, ht, hm⟩
  · rintro ⟨t, ht, hm⟩
    exact ⟨(Array.getElem?_eq_some_iff.1 ht).1, t, ht, hm⟩

theorem indexed_iff {s : Scope} : s.Indexed ↔ s.children = markerPositions s.tokens := by
  have hsorted : (markerPositions s.tokens).toList.Pairwise (· < ·) := by
    rw [toList_markerPositions]
    exact List.pairwise_lt_range.filter _
  constructor
  · intro h
    refine Array.toList_inj.1 (h.ascending.eq_of_mem_iff hsorted fun i => ?_)
    rw [Array.mem_toList_iff, Array.mem_toList_iff, h.mem_iff, mem_markerPositions]
  · intro h
    refine ⟨by rw [h]; exact hsorted, fun i => ?_⟩
    rw [h, mem_markerPositions]

/-- A token that is appended adds its own position, if it is a marker. -/
theorem markerPositions_push (tokens : Array Token) (t : Token) :
    markerPositions (tokens.push t) =
      if t.isMarker then (markerPositions tokens).push tokens.size else markerPositions tokens := by
  have hold : (List.range tokens.size).filter (fun i => (tokens.push t)[i]?.any Token.isMarker) =
      (List.range tokens.size).filter fun i => tokens[i]?.any Token.isMarker := by
    refine List.filter_congr fun i hi => ?_
    rw [Array.getElem?_push, if_neg (by have := List.mem_range.1 hi; omega)]
  apply Array.toList_inj.1
  rw [toList_markerPositions, Array.size_push, List.range_succ, List.filter_append, hold, ← toList_markerPositions]
  cases hm : t.isMarker <;> simp [hm]

/-- Tokens that are markers at the same positions have the same positions of markers. -/
private theorem markerPositions_congr {tokens tokens' : Array Token} (hsize : tokens'.size = tokens.size)
    (h : ∀ i : Nat, tokens'[i]?.map Token.isMarker = tokens[i]?.map Token.isMarker) :
    markerPositions tokens' = markerPositions tokens := by
  apply Array.toList_inj.1
  rw [toList_markerPositions, toList_markerPositions, hsize]
  refine List.filter_congr fun i _ => ?_
  have hany : ∀ x : Option Token, x.any Token.isMarker = (x.map Token.isMarker).any id := by
    intro x
    cases x <;> rfl
  rw [hany, h i, ← hany]

/-! ### Edits of one scope -/

theorem left_answering {α β : Type} (f : α → β) (r : EStateM.Result ScopeError Scope α) :
    left (answering f r) = left r := by
  cases r <;> rfl

variable {s s' : Scope} {t : Token}

private theorem indexed_ofTokens (tokens : Array Token) : (ofTokens tokens).Indexed := indexed_iff.2 rfl

theorem Indexed.push (h : s.Indexed) (t : Token) : (s.push t).Indexed := by
  rw [indexed_iff] at h ⊢
  obtain ⟨label, tokens, children⟩ := s
  simp only [Scope.push, markerPositions_push] at h ⊢
  rw [h]

theorem Indexed.pop (h : s.Indexed) : s.pop.2.Indexed := by
  rw [indexed_iff] at h ⊢
  unfold Scope.pop
  split
  · rename_i u hu
    obtain ⟨rest, htokens⟩ := Array.back?_eq_some_iff.1 hu
    simp only [h, htokens, markerPositions_push, Array.pop_push]
    split <;> simp
  · exact h

/-- Putting a token in the place of one of its kind changes no position. -/
theorem Indexed.set (h : s.Indexed) {i : Nat} {u : Token} (hu : s.tokens[i]? = some u)
    (hm : t.isMarker = u.isMarker) : Indexed { s with tokens := s.tokens.setIfInBounds i t } := by
  rw [indexed_iff] at h ⊢
  simp only [h]
  refine (markerPositions_congr (Array.size_setIfInBounds ..) fun j => ?_).symm
  rw [Array.getElem?_setIfInBounds]
  split
  · rename_i hij
    subst hij
    rw [if_pos (Array.getElem?_eq_some_iff.1 hu).1, hu, Option.map_some, Option.map_some, hm]
  · rfl

/-! ### Sound scopes -/

/-- The positions are right here and in every scope below. -/
inductive Sound : Scope → Prop
  | mk {s : Scope} (here : s.Indexed) (inside : ∀ t ∈ s.tokens, ∀ inner, t.scope? = some inner → Sound inner) : Sound s

theorem Sound.here (h : s.Sound) : s.Indexed := by
  cases h with
  | mk here inside => exact here

end Scope

/-- The scope of a marker is sound. -/
def Token.Sound (t : Token) : Prop := ∀ inner, t.scope? = some inner → inner.Sound

theorem Token.sound_leaf (l : Leaf) : (Token.leaf l).Sound := by
  intro inner h
  cases h

theorem Token.sound_marker {line indent : UInt32} {inner : Scope} (h : inner.Sound) :
    (Token.marker line indent inner).Sound := by
  intro inner' h'
  cases h'
  exact h

namespace Scope

variable {s s' other inner : Scope} {t : Token} {tokens : Array Token}

private theorem Sound.token (h : s.Sound) (ht : t ∈ s.tokens) : t.Sound := by
  cases h with
  | mk here inside => exact inside t ht

private theorem Sound.of_getElem? (h : s.Sound) {i : Nat} (ht : s.tokens[i]? = some t) : t.Sound :=
  h.token (Array.mem_of_getElem? ht)

private theorem sound_labelled (label : String) : (labelled label).Sound :=
  .mk (indexed_iff.2 rfl) (by simp [labelled])

theorem sound_ofTokens (h : ∀ t ∈ tokens, t.Sound) : (ofTokens tokens).Sound := .mk (indexed_ofTokens tokens) h

private theorem Sound.push (h : s.Sound) (ht : t.Sound) : (s.push t).Sound := by
  refine .mk (h.here.push t) fun u hu => ?_
  rw [← Array.mem_toList_iff, toList_tokens_push, List.mem_append, List.mem_singleton] at hu
  rcases hu with hu | rfl
  · exact h.token (Array.mem_toList_iff.1 hu)
  · exact ht

private theorem Sound.foldl_push (h : s.Sound) (ht : ∀ t ∈ tokens, t.Sound) : (tokens.foldl Scope.push s).Sound := by
  rw [← Array.foldl_toList]
  replace ht : ∀ t ∈ tokens.toList, t.Sound := fun t hmem => ht t (Array.mem_toList_iff.1 hmem)
  generalize tokens.toList = ts at ht
  induction ts generalizing s with
  | nil => exact h
  | cons t ts ih => exact ih (h.push (ht t (by simp))) fun u hu => ht u (by simp [hu])

private theorem Sound.append (h : s.Sound) (ho : other.Sound) : (s.append other).Sound :=
  h.foldl_push fun _ => ho.token

private theorem sound_ofSequences {sequences : List (Array Token)} (h : ∀ tokens ∈ sequences, ∀ t ∈ tokens, t.Sound) :
    (ofSequences sequences).Sound := by
  suffices key : ∀ s : Scope, s.Sound → (sequences.foldl (fun s tokens => tokens.foldl Scope.push s) s).Sound from
    key _ (sound_labelled unknownLabel)
  induction sequences with
  | nil => exact fun s hs => hs
  | cons tokens rest ih =>
    exact fun s hs => ih (fun ts hts => h ts (by simp [hts])) _ (hs.foldl_push (h tokens (by simp)))

private theorem Sound.insert (h : s.Sound) (ht : t.Sound) (i : Nat) : (left (s.insert t i)).Sound := by
  unfold Scope.insert
  split
  · exact h
  · split
    · exact h.push ht
    · refine .mk (indexed_iff.2 rfl) fun u hu => ?_
      simp only [left, Array.insertIdxIfInBounds] at hu
      split at hu
      · rcases Array.mem_insertIdx.1 hu with rfl | hu
        · exact ht
        · exact h.token hu
      · exact h.token hu

private theorem Sound.delete (h : s.Sound) (i : Nat) : (left (s.delete i)).Sound := by
  unfold Scope.delete
  split
  · refine .mk (indexed_iff.2 rfl) fun u hu => ?_
    simp only [left, Array.eraseIdxIfInBounds] at hu
    split at hu
    · exact h.token (Array.mem_of_mem_eraseIdx hu)
    · exact h.token hu
  · exact h

private theorem Sound.pop (h : s.Sound) : s.pop.2.Sound := by
  refine .mk h.here.pop fun u hu => h.token ?_
  unfold Scope.pop at hu
  split at hu
  · rename_i v hv
    obtain ⟨rest, htokens⟩ := Array.back?_eq_some_iff.1 hv
    simp only [htokens, Array.pop_push] at hu
    rw [htokens]
    exact Array.mem_push_of_mem _ hu
  · exact hu

private theorem Sound.scopify (h : s.Sound) (first last : Nat) : (left (s.scopify first last)).Sound := by
  unfold Scope.scopify
  split
  · have hextract : ∀ i j, ∀ u ∈ s.tokens.extract i j, u.Sound := by
      intro i j u hu
      rw [← Array.mem_toList_iff, Array.toList_extract, List.extract_eq_take_drop] at hu
      exact h.token (Array.mem_toList_iff.1 (List.mem_of_mem_drop (List.mem_of_mem_take hu)))
    refine .mk (indexed_iff.2 rfl) fun u hu => ?_
    simp only [left, Array.append_eq_append, Array.mem_append, Array.mem_push] at hu
    rcases hu with (hu | rfl) | hu
    · exact hextract _ _ u hu
    · exact Token.sound_marker (sound_ofTokens (hextract _ _))
    · exact hextract _ _ u hu
  · exact h

theorem Sound.withLabel (h : s.Sound) (label : String) : (s.withLabel label).Sound :=
  .mk ⟨h.here.ascending, h.here.mem_iff⟩ fun _ ht => h.token ht

/-- A token may be put in the place of one of its kind. -/
private theorem Sound.set (h : s.Sound) {i : Nat} {u : Token} (hu : s.tokens[i]? = some u)
    (hm : t.isMarker = u.isMarker) (ht : t.Sound) : Sound { s with tokens := s.tokens.setIfInBounds i t } := by
  refine .mk (h.here.set hu hm) fun v hv => ?_
  rcases Array.mem_or_eq_of_mem_setIfInBounds hv with hv | rfl
  · exact h.token hv
  · exact ht

private theorem Sound.modifyLeaf (h : s.Sound) (i : Nat) (f : Leaf → Leaf) : (left (s.modifyLeaf i f)).Sound := by
  unfold Scope.modifyLeaf
  split
  · rename_i l hl
    exact h.set hl rfl (Token.sound_leaf _)
  · exact h
  · exact h

/-! ### Nested scopes by their number -/

theorem map_scope?_markerPositions (tokens : Array Token) :
    (markerPositions tokens).toList.map (fun i => tokens[i]?.bind Token.scope?) =
      (tokens.toList.filterMap Token.scope?).map some := by
  obtain ⟨ts⟩ := tokens
  induction ts using List.reverseRecOn with
  | nil => rfl
  | append_singleton ts t ih =>
    have hold : (markerPositions ts.toArray).toList.map (fun i => (ts.toArray.push t)[i]?.bind Token.scope?) =
        (ts.filterMap Token.scope?).map some := by
      rw [← ih]
      refine List.map_congr_left fun i hi => ?_
      obtain ⟨u, hu, -⟩ := mem_markerPositions.1 (Array.mem_toList_iff.1 hi)
      have hlt := (Array.getElem?_eq_some_iff.1 hu).1
      rw [Array.getElem?_push, if_neg (by omega)]
    rw [show (⟨ts ++ [t]⟩ : Array Token) = ts.toArray.push t by simp, markerPositions_push, Array.toList_push,
      List.filterMap_append, List.map_append, ← hold]
    cases t with
    | leaf l => simp [Token.isMarker, Token.scope?]
    | marker line indent inner => simp [Token.isMarker, Token.scope?]

theorem Indexed.size_children (h : s.Indexed) : s.children.size = s.nested.length := by
  have hmap := congrArg List.length (map_scope?_markerPositions s.tokens)
  rwa [← indexed_iff.1 h, List.length_map, List.length_map, Array.length_toList] at hmap

/-- The `n`-th position is that of the `n`-th nested scope. -/
private theorem Indexed.getElem?_children (h : s.Indexed) {n : Nat} (hn : s.nested[n]? = some inner) :
    ∃ position line indent,
      s.children[n]? = some position ∧ s.tokens[position]? = some (.marker line indent inner) := by
  have hmap := congrArg (·[n]?) (map_scope?_markerPositions s.tokens)
  rw [← nested, ← indexed_iff.1 h] at hmap
  simp only [List.getElem?_map, Array.getElem?_toList, hn, Option.map_some] at hmap
  obtain ⟨position, hp, hscope⟩ := Option.map_eq_some_iff.1 hmap
  obtain ⟨t, ht, hinner⟩ := Option.bind_eq_some_iff.1 hscope
  cases t with
  | leaf l => cases hinner
  | marker line indent scope =>
    cases hinner
    exact ⟨position, line, indent, hp, ht⟩

private theorem childEntry_of_some {n position : Nat} {line indent : UInt32} (hp : s.children[n]? = some position)
    (ht : s.tokens[position]? = some (.marker line indent inner)) :
    s.childEntry n = .ok (position, line, indent, inner) := by
  simp only [childEntry, hp, ht]

theorem childEntry_eq_ok {n position : Nat} {line indent : UInt32}
    (h : s.childEntry n = .ok (position, line, indent, inner)) :
    s.tokens[position]? = some (.marker line indent inner) := by
  unfold childEntry at h
  split at h
  · cases h
  · split at h
    · rename_i ht
      cases h
      exact ht
    · cases h

private theorem Indexed.childEntry_of_none (h : s.Indexed) {n : Nat} (hn : s.nested[n]? = none) :
    s.childEntry n = .error (.indexOutOfRange n s.nested.length) := by
  have hp : s.children[n]? = none := by
    rw [Array.getElem?_eq_none_iff, h.size_children]
    exact List.getElem?_eq_none_iff.1 hn
  simp only [childEntry, hp, childCount, h.size_children]

/-- The scopes directly inside are found by their number, to be read or edited, and no other number is answered. -/
structure Numbered (s : Scope) : Prop where
  child_some : ∀ n inner, s.nested[n]? = some inner → s.child n = .ok inner
  child_none : ∀ n, s.nested[n]? = none → s.child n = .error (.indexOutOfRange n s.nested.length)
  edit_some : ∀ n inner, s.nested[n]? = some inner →
    ∃ position line indent, s.children[n]? = some position ∧ s.tokens[position]? = some (.marker line indent inner) ∧
      ∀ (α : Type) (f : Scope → EStateM.Result ScopeError Scope α) (path : List Nat),
        s.editAt f (n :: path) = s.around position line indent (inner.editAt f path)
  edit_none : ∀ n, s.nested[n]? = none →
    ∀ (α : Type) (f : Scope → EStateM.Result ScopeError Scope α) (path : List Nat),
      s.editAt f (n :: path) = .error (.indexOutOfRange n s.nested.length) s

private theorem Indexed.numbered (h : s.Indexed) : s.Numbered := by
  refine ⟨?_, ?_, ?_, ?_⟩
  · intro n inner hn
    obtain ⟨position, line, indent, hp, ht⟩ := h.getElem?_children hn
    rw [child, childEntry_of_some hp ht]
    rfl
  · intro n hn
    rw [child, h.childEntry_of_none hn]
    rfl
  · intro n inner hn
    obtain ⟨position, line, indent, hp, ht⟩ := h.getElem?_children hn
    refine ⟨position, line, indent, hp, ht, fun α f path => ?_⟩
    rw [editAt, childEntry_of_some hp ht]
  · intro n hn α f path
    rw [editAt, h.childEntry_of_none hn]

section

variable {α : Type} {f : Scope → EStateM.Result ScopeError Scope α}

theorem left_around (s : Scope) (position : Nat) (line indent : UInt32) (r : EStateM.Result ScopeError Scope α) :
    left (s.around position line indent r) = s.setMarker position line indent (left r) := by
  cases r <;> rfl

/-- An edit that leaves scopes sound leaves them sound below. -/
theorem Sound.editAt (keep : ∀ s : Scope, s.Sound → (left (f s)).Sound) (path : List Nat) (h : s.Sound) :
    (left (s.editAt f path)).Sound := by
  induction path generalizing s with
  | nil => exact keep s h
  | cons n path ih =>
    rw [Scope.editAt]
    split
    · rename_i position line indent inner hc
      have ht := childEntry_eq_ok hc
      have hinner : inner.Sound := h.of_getElem? ht inner rfl
      rw [left_around]
      exact h.set ht rfl (Token.sound_marker (ih hinner))
    · exact h

end

end Scope

/-! ### Scopes below -/

mutual

private theorem Token.sound_of_mem_levels : (t : Token) → t.Sound → ∀ level ∈ t.levels, level.2.Sound
  | .leaf _, _, _, hmem => by cases hmem
  | .marker line indent scope, h, level, hmem =>
    Scope.sound_of_mem_levelsAt scope (some ⟨line, indent⟩) (h scope rfl) level hmem

theorem Scope.sound_of_mem_levelsAt :
    (s : Scope) → (place : Option Frame) → s.Sound → ∀ level ∈ s.levelsAt place, level.2.Sound
  | ⟨label, ⟨tokens⟩, children⟩, place, h, level, hmem => by
    rcases List.mem_cons.1 hmem with rfl | hmem
    · exact h
    · exact Token.sound_of_mem_levelsList tokens (fun t ht => h.token (Array.mem_toList_iff.1 ht)) level hmem

private theorem Token.sound_of_mem_levelsList :
    (ts : List Token) → (∀ t ∈ ts, t.Sound) → ∀ level ∈ Token.levelsList ts, level.2.Sound
  | [], _, _, hmem => by cases hmem
  | t :: ts, h, level, hmem => by
    rcases List.mem_append.1 hmem with hmem | hmem
    · exact Token.sound_of_mem_levels t (h t (by simp)) level hmem
    · exact Token.sound_of_mem_levelsList ts (fun u hu => h u (by simp [hu])) level hmem

end

mutual

/-- The token without the positions kept in the scopes below. -/
def Token.bare : Token → Token
  | .leaf leaf => .leaf leaf
  | .marker line indent scope => .marker line indent scope.bare

/-- The labels and tokens of a scope and of the scopes below, without the positions. -/
def Scope.bare : Scope → Scope
  | ⟨label, ⟨tokens⟩, _⟩ => ⟨label, ⟨Token.bareList tokens⟩, #[]⟩

def Token.bareList : List Token → List Token
  | [] => []
  | t :: ts => t.bare :: Token.bareList ts

end

mutual

private theorem Token.eq_of_bare_eq : (t u : Token) → t.Sound → u.Sound → t.bare = u.bare → t = u
  | .leaf _, .leaf _, _, _, h => h
  | .leaf _, .marker .., _, _, h => by cases h
  | .marker .., .leaf _, _, _, h => by cases h
  | .marker line indent scope, .marker line' indent' scope', ht, hu, h => by
    simp only [Token.bare, Token.marker.injEq] at h
    obtain ⟨rfl, rfl, h⟩ := h
    rw [Scope.eq_of_bare_eq scope scope' (ht scope rfl) (hu scope' rfl) h]

/-- Sound scopes with the same labels and tokens, at every depth, are the same. -/
theorem Scope.eq_of_bare_eq : (a b : Scope) → a.Sound → b.Sound → a.bare = b.bare → a = b
  | ⟨label, ⟨ts⟩, children⟩, ⟨label', ⟨us⟩, children'⟩, ha, hb, h => by
    simp only [Scope.bare, Scope.mk.injEq, Array.mk.injEq, and_true] at h
    obtain ⟨rfl, h⟩ := h
    obtain rfl := Token.eq_of_bareList_eq ts us (fun t ht => ha.token (Array.mem_toList_iff.1 ht))
      (fun u hu => hb.token (Array.mem_toList_iff.1 hu)) h
    have ha' : children = _ := Scope.indexed_iff.1 ha.here
    have hb' : children' = _ := Scope.indexed_iff.1 hb.here
    rw [ha', hb']

private theorem Token.eq_of_bareList_eq :
    (ts us : List Token) → (∀ t ∈ ts, t.Sound) → (∀ u ∈ us, u.Sound) → Token.bareList ts = Token.bareList us → ts = us
  | [], [], _, _, _ => rfl
  | [], _ :: _, _, _, h => by cases h
  | _ :: _, [], _, _, h => by cases h
  | t :: ts, u :: us, hts, hus, h => by
    simp only [Token.bareList, List.cons.injEq] at h
    rw [Token.eq_of_bare_eq t u (hts t (by simp)) (hus u (by simp)) h.1,
      Token.eq_of_bareList_eq ts us (fun v hv => hts v (by simp [hv])) (fun v hv => hus v (by simp [hv])) h.2]

end

namespace Scope

/-! ### Whatever is made -/

/-- A change made to a scope from outside. -/
inductive Edit where
  | push (t : Token)
  | insert (t : Token) (index : Nat)
  | delete (index : Nat)
  | pop
  | scopify (first last : Nat)
  | append (other : Scope)
  | relabel (label : String)
  | modifyLeaf (index : Nat) (f : Leaf → Leaf)

namespace Edit

/-- The scopes that an edit brings in. -/
def brings : Edit → List Scope
  | push t | insert t _ => t.scope?.toList
  | append other => [other]
  | _ => []

/-- Make an edit and give back the token that it takes out or changes; one that does not fit is refused. -/
def perform (s : Scope) : Edit → EStateM.Result ScopeError Scope (Option Token)
  | push t => .ok none (s.push t)
  | insert t index => answering (fun _ => none) (s.insert t index)
  | delete index => answering some (s.delete index)
  | pop => .ok s.pop.1 s.pop.2
  | scopify first last => answering (fun _ => none) (s.scopify first last)
  | append other => .ok none (s.append other)
  | relabel label => .ok none (s.withLabel label)
  | modifyLeaf index f => answering (fun l => some (.leaf l)) (s.modifyLeaf index f)

end Edit

/-- What an edit in the scope at the end of a path leaves. -/
def edit (s : Scope) (path : List Nat) (e : Edit) : Scope := left (s.editAt (fun inner => e.perform inner) path)

/-- The scopes that can be made: empty or from tokens, edited any number of times and anywhere below, and those found
inside others. -/
inductive Made : Scope → Prop
  | labelled (label : String) : Made (labelled label)
  | ofTokens {tokens : Array Token} (h : ∀ t ∈ tokens, ∀ inner, t.scope? = some inner → Made inner) :
      Made (ofTokens tokens)
  | ofSequences {sequences : List (Array Token)}
      (h : ∀ tokens ∈ sequences, ∀ t ∈ tokens, ∀ inner, t.scope? = some inner → Made inner) :
      Made (ofSequences sequences)
  | edit {s : Scope} (hs : Made s) (path : List Nat) (e : Edit) (he : ∀ s' ∈ e.brings, Made s') :
      Made (s.edit path e)
  | inner {s inner : Scope} {t : Token} (hs : Made s) (ht : t ∈ s.tokens) (hi : t.scope? = some inner) : Made inner

variable {s s' : Scope}

private theorem Sound.perform (h : s.Sound) {e : Edit} (he : ∀ s' ∈ e.brings, s'.Sound) :
    (left (e.perform s)).Sound := by
  cases e with
  | push t => exact h.push fun inner hi => he inner (by simp [Edit.brings, hi])
  | insert t index =>
    rw [Edit.perform, left_answering]
    exact h.insert (fun inner hi => he inner (by simp [Edit.brings, hi])) index
  | delete index =>
    rw [Edit.perform, left_answering]
    exact h.delete index
  | pop => exact h.pop
  | scopify first last =>
    rw [Edit.perform, left_answering]
    exact h.scopify first last
  | append other => exact h.append (he other (by simp [Edit.brings]))
  | relabel label => exact h.withLabel label
  | modifyLeaf index f =>
    rw [Edit.perform, left_answering]
    exact h.modifyLeaf index f

private theorem Sound.edit (h : s.Sound) (path : List Nat) {e : Edit} (he : ∀ s' ∈ e.brings, s'.Sound) :
    (s.edit path e).Sound :=
  Sound.editAt (fun _ hs => hs.perform he) path h

theorem Made.sound (h : s.Made) : s.Sound := by
  induction h with
  | labelled label => exact sound_labelled label
  | ofTokens h ih => exact sound_ofTokens ih
  | ofSequences h ih => exact sound_ofSequences ih
  | edit hs path e he ih ihe => exact ih.edit path ihe
  | inner hs ht hi ih => exact ih.token ht _ hi

theorem Made.push {t : Token} (hs : s.Made) (ht : ∀ inner, t.scope? = some inner → inner.Made) : (s.push t).Made :=
  hs.edit [] (.push t) fun inner hi => ht inner (by simpa [Edit.brings] using hi)

theorem Made.append (hs : s.Made) (hs' : s'.Made) : (s.append s').Made :=
  hs.edit [] (.append s') fun inner hi => by rwa [List.mem_singleton.1 hi]

/-- The marker positions are always right.  In a scope that was made, whatever its history, and in every scope below,
the positions kept are exactly those of the markers, in ascending order; so nested scopes are found by their number, at
the position that has this number, and no position is stale.  Scopes with the same labels and tokens at every depth are
the same, whatever made them. -/
theorem made_indexed (h : s.Made) :
    (∀ place t, (place, t) ∈ s.levels → t.Indexed ∧ t.children.size = t.nested.length ∧ t.Numbered) ∧
      ∀ s', s'.Made → s.bare = s'.bare → s = s' := by
  constructor
  · intro place t hmem
    have ht : t.Indexed := (sound_of_mem_levelsAt s none h.sound (place, t) hmem).here
    exact ⟨ht, ht.size_children, ht.numbered⟩
  · intro s' h' hbare
    exact eq_of_bare_eq s s' h.sound h'.sound hbare

/-- Two tokens are regrouped, an edit below is refused, and a scope two levels down gets a marker. -/
theorem made_indexed_regrouped :
    ∃ s : Scope, s.Made ∧ s.levels.map (fun level => level.2.children) = [#[0], #[1], #[0], #[]] ∧
      ∀ place t, (place, t) ∈ s.levels → t.Indexed ∧ t.children.size = t.nested.length ∧ t.Numbered := by
  have hmarker : ∀ label, ∀ inner, (Token.marker 1 0 (labelled label)).scope? = some inner → inner.Made := by
    intro label inner hi
    cases hi
    exact .labelled label
  have hstart : (ofTokens #[.leaf (.plain "a" 1 0), .marker 1 0 (labelled "L"), .leaf (.plain "b" 2 0)]).Made := by
    refine .ofTokens fun t ht inner hi => ?_
    simp only [List.mem_toArray, List.mem_cons, List.not_mem_nil, or_false] at ht
    rcases ht with rfl | rfl | rfl
    · cases hi
    · exact hmarker "L" inner hi
    · cases hi
  have hgrouped := hstart.edit [] (.scopify 0 1) (by simp [Edit.brings])
  have hrefused := hgrouped.edit [0] (.delete 5) (by simp [Edit.brings])
  have hmade := hrefused.edit [0, 0] (.insert (.marker 1 0 (labelled "M")) 0) fun s' hs' =>
    hmarker "M" s' (by simpa [Edit.brings] using hs')
  exact ⟨_, hmade, by decide +kernel, (made_indexed hmade).1⟩

end Scope

end LexTree
