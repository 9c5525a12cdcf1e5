import LexTree.Proofs.History

/-!
# The scopes of a tree

The levels of a tree are its scopes, each with the place of its marker.  The outline of a scope is what happened in it:
its leaves, and the openings of the scopes directly inside.  A property of outlines that passes from two pieces to the
whole (`Composable`) is kept by a history as long as it holds of each piece that is added to the innermost scope; since
closing a scope changes nothing in the finished tree, it then holds of every level (`Draft.Outlined.finish`).
-/

namespace LexTree

mutual

/-- The scopes in a token, each with the place of its marker. -/
def Token.levels : Token → List (Option Frame × Scope)
  | .leaf _ => []
  | .marker line indent scope => scope.levelsAt (some ⟨line, indent⟩)

/-- A scope with a place, and the scopes inside. -/
def Scope.levelsAt (place : Option Frame) : Scope → List (Option Frame × Scope)
  | ⟨label, ⟨tokens⟩, children⟩ => (place, ⟨label, ⟨tokens⟩, children⟩) :: Token.levelsList tokens

/-- The scopes in a token sequence. -/
def Token.levelsList : List Token → List (Option Frame × Scope)
  | [] => []
  | t :: ts => t.levels ++ Token.levelsList ts

end

/-- The scopes of a tree; the outermost has no marker. -/
def Scope.levels (s : Scope) : List (Option Frame × Scope) := s.levelsAt none

/-- What happens in a scope where a token stands. -/
def Token.event : Token → Event
  | .leaf l => .leaf l
  | .marker line indent _ => .opened line indent

def Scope.outline (s : Scope) : List Event := s.tokens.toList.map Token.event

private theorem Scope.levelsAt_eq (s : Scope) (place : Option Frame) :
    s.levelsAt place = (place, s) :: Token.levelsList s.tokens.toList := by
  obtain ⟨label, ⟨tokens⟩, children⟩ := s
  rfl

private theorem Token.levelsList_append (ts us : List Token) :
    Token.levelsList (ts ++ us) = Token.levelsList ts ++ Token.levelsList us := by
  induction ts with
  | nil => rfl
  | cons t ts ih => rw [List.cons_append, levelsList, levelsList, ih, List.append_assoc]

private theorem Scope.outline_push (s : Scope) (t : Token) : (s.push t).outline = s.outline ++ [t.event] := by
  rw [outline, toList_tokens_push, List.map_append]
  rfl

theorem Scope.getElem?_outline (s : Scope) (k : Nat) : s.outline[k]? = s.tokens[k]?.map Token.event := by
  rw [outline, List.getElem?_map, Array.getElem?_toList]

theorem Token.eq_leaf_of_event {t : Token} {l : Leaf} (h : t.event = .leaf l) : t = .leaf l := by
  cases t with
  | leaf l' => exact congrArg Token.leaf (Event.leaf.inj h)
  | marker line indent scope => cases h

theorem Token.isMarker_of_event {t : Token} {line indent : UInt32} (h : t.event = .opened line indent) :
    t.isMarker = true := by
  cases t with
  | leaf l => cases h
  | marker line indent scope => rfl

/-! ### Properties of outlines -/

section

variable (P : Option Frame → List Event → Prop)

/-- The outline of every scope in a list has the property. -/
def AllOutlines (levels : List (Option Frame × Scope)) : Prop := ∀ place s, (place, s) ∈ levels → P place s.outline

/-- It holds of an outline if it holds of the pieces. -/
structure Composable : Prop where
  nil : ∀ place, P place []
  append : ∀ place es fs, P place es → P place fs → P place (es ++ fs)

namespace Draft

/-- The outlines of the open scopes and of the scopes inside them have the property, if the outline of the innermost
goes on with `es` and that of a scope around it with the opening of the next. -/
def OutlinedFrom (root : Scope) : List OpenScope → List Event → Prop
  | [], es => P none (root.outline ++ es) ∧ AllOutlines P (Token.levelsList root.tokens.toList)
  | ⟨scope, line, indent⟩ :: rest, es =>
    P (some ⟨line, indent⟩) (scope.outline ++ es) ∧ AllOutlines P (Token.levelsList scope.tokens.toList) ∧
      OutlinedFrom root rest [.opened line indent]

/-- Every scope, open or closed, has the property. -/
def Outlined (d : Draft) : Prop := OutlinedFrom P d.root d.nested []

end Draft

end

variable {P : Option Frame → List Event → Prop}

private theorem AllOutlines.append_iff {xs ys : List (Option Frame × Scope)} :
    AllOutlines P (xs ++ ys) ↔ AllOutlines P xs ∧ AllOutlines P ys := by
  simp only [AllOutlines, List.mem_append, or_imp, forall_and]

private theorem AllOutlines.levelsAt_iff {s : Scope} {place : Option Frame} :
    AllOutlines P (s.levelsAt place) ↔ P place s.outline ∧ AllOutlines P (Token.levelsList s.tokens.toList) := by
  rw [Scope.levelsAt_eq]
  constructor
  · intro h
    exact ⟨h place s (by simp), fun place' s' hmem => h place' s' (List.mem_cons_of_mem _ hmem)⟩
  · rintro ⟨hs, hinner⟩ place' s' hmem
    rcases List.mem_cons.1 hmem with heq | hmem
    · cases heq
      exact hs
    · exact hinner place' s' hmem

private theorem AllOutlines.push_iff {s : Scope} {t : Token} :
    AllOutlines P (Token.levelsList (s.push t).tokens.toList) ↔
      AllOutlines P (Token.levelsList s.tokens.toList) ∧ AllOutlines P t.levels := by
  rw [Scope.toList_tokens_push, Token.levelsList_append, AllOutlines.append_iff]
  simp [Token.levelsList]

namespace Draft

variable {d : Draft} {new : List Leaf} {line indent : UInt32}

private theorem allOutlines_closeWith (root : Scope) (t : Token) (nested : List OpenScope) :
    AllOutlines P (closeWith root t nested).levels ↔ AllOutlines P t.levels ∧ OutlinedFrom P root nested [t.event] := by
  -- each scope goes into a marker at the end of the scope around it
  induction nested generalizing t with
  | nil =>
    rw [closeWith, Scope.levels, AllOutlines.levelsAt_iff, AllOutlines.push_iff, Scope.outline_push, OutlinedFrom]
    constructor
    · rintro ⟨h, hroot, ht⟩
      exact ⟨ht, h, hroot⟩
    · rintro ⟨ht, h, hroot⟩
      exact ⟨h, hroot, ht⟩
  | cons p rest ih =>
    obtain ⟨scope, line, indent⟩ := p
    rw [closeWith, ih, Token.levels, AllOutlines.levelsAt_iff, AllOutlines.push_iff, Scope.outline_push, OutlinedFrom]
    constructor
    · rintro ⟨⟨h, hscope, ht⟩, hrest⟩
      exact ⟨ht, h, hscope, hrest⟩
    · rintro ⟨ht, h, hscope, hrest⟩
      exact ⟨⟨h, hscope, ht⟩, hrest⟩

/-- The levels of the finished tree are the scopes of the draft. -/
theorem allOutlines_finish (d : Draft) : AllOutlines P d.finish.levels ↔ d.Outlined P := by
  obtain ⟨root, _ | ⟨⟨scope, line, indent⟩, rest⟩⟩ := d
  · rw [finish, Scope.levels, AllOutlines.levelsAt_iff, Outlined, OutlinedFrom, List.append_nil]
  · simp only [finish, Outlined, OutlinedFrom, List.append_nil]
    rw [allOutlines_closeWith, Token.levels, AllOutlines.levelsAt_iff, and_assoc]
    rfl

theorem outlined_empty (hP : Composable P) : ({} : Draft).Outlined P := by
  refine ⟨hP.nil none, ?_⟩
  intro place s hmem
  cases hmem

private theorem outlinedFrom_push (d : Draft) (l : Leaf) (es : List Event) :
    OutlinedFrom P (d.push (.leaf l)).root (d.push (.leaf l)).nested es ↔
      OutlinedFrom P d.root d.nested (.leaf l :: es) := by
  have hnone : AllOutlines P (Token.leaf l).levels := by
    intro place s hmem
    cases hmem
  obtain ⟨root, _ | ⟨⟨scope, line, indent⟩, rest⟩⟩ := d
  all_goals
    simp only [push, OutlinedFrom, Scope.outline_push, AllOutlines.push_iff, hnone, and_true, List.append_assoc]
    rfl

private theorem outlinedFrom_leaves (d : Draft) (leaves : List Leaf) (es : List Event) :
    OutlinedFrom P ((leaves.map Event.leaf).foldl apply d).root ((leaves.map Event.leaf).foldl apply d).nested es ↔
      OutlinedFrom P d.root d.nested (leaves.map Event.leaf ++ es) := by
  induction leaves generalizing d with
  | nil => rfl
  | cons l leaves ih =>
    rw [List.map_cons, List.foldl_cons, ih]
    exact outlinedFrom_push d l _

private theorem Outlined.append (h : d.Outlined P) (hP : Composable P) {es : List Event} (hnew : P d.frames.head? es) :
    OutlinedFrom P d.root d.nested es := by
  obtain ⟨root, _ | ⟨⟨scope, line, indent⟩, rest⟩⟩ := d
  all_goals
    simp only [Outlined, OutlinedFrom, List.append_nil] at h
    exact ⟨hP.append _ _ _ h.1 hnew, h.2⟩

theorem Outlined.leaves (h : d.Outlined P) (hP : Composable P) (hnew : P d.frames.head? (new.map .leaf)) :
    ((new.map Event.leaf).foldl apply d).Outlined P := by
  rw [Outlined, outlinedFrom_leaves, List.append_nil]
  exact h.append hP hnew

theorem Outlined.opened (h : d.Outlined P) (hP : Composable P)
    (hnew : P d.frames.head? (new.map .leaf ++ [.opened line indent])) :
    ((new.map Event.leaf ++ [Event.opened line indent]).foldl apply d).Outlined P := by
  rw [List.foldl_append]
  refine ⟨hP.nil _, ?_, (outlinedFrom_leaves d new _).2 (h.append hP hnew)⟩
  intro place s hmem
  cases hmem

theorem Outlined.closed (h : d.Outlined P) (hP : Composable P) (hnew : P d.frames.head? (new.map .leaf)) :
    ((new.map Event.leaf ++ [Event.closed]).foldl apply d).Outlined P := by
  rw [List.foldl_append]
  have hleaves := h.leaves hP hnew
  rw [← allOutlines_finish] at hleaves ⊢
  rw [List.foldl_cons, List.foldl_nil, apply, finish_closeScope]
  exact hleaves

end Draft

end LexTree
