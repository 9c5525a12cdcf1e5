import LexTree.Proofs.Run
import LexTree.Scope.Walk

/-!
# The tree and the history of a scan

The events of a scan are its history.  The log of a history lists each leaf and each opening of a scope with the number
of scopes open at that moment.  The tree is built with a stack of detached scopes, each of which moves into its parent
when it closes.  The key facts: appending a token to a draft appends the walk of the token to the walk of the finished
tree (`walk_finish_push`), opening a scope has the effect of appending its marker at once (`finish_openScope`), and
closing a scope changes nothing in the finished tree (`finish_closeScope`).
-/

namespace LexTree

/-! ### The log -/

namespace Event

def leaf? : Event → Option Leaf
  | leaf l => some l
  | _ => none

def isOpened : Event → Bool
  | opened .. => true
  | _ => false

/-- The number of scopes open after an event. -/
def depthAfter (depth : Nat) : Event → Nat
  | leaf _ => depth
  | opened .. => depth + 1
  | closed => depth - 1

/-- What is logged of an event that happens with `depth` scopes open. -/
def entries (depth : Nat) : Event → List Entry
  | leaf l => [.leaf depth l]
  | opened line indent => [.scope depth line indent Scope.unknownLabel]
  | closed => []

/-- The log of a history that begins with `depth` scopes open. -/
def logFrom (depth : Nat) : List Event → List Entry
  | [] => []
  | e :: es => e.entries depth ++ logFrom (e.depthAfter depth) es

/-- The log of a history. -/
def log (history : List Event) : List Entry := logFrom 0 history

theorem logFrom_append (depth : Nat) (es fs : List Event) :
    logFrom depth (es ++ fs) = logFrom depth es ++ logFrom (es.foldl depthAfter depth) fs := by
  induction es generalizing depth with
  | nil => rfl
  | cons e es ih => simp only [List.cons_append, logFrom, List.foldl_cons, ih, List.append_assoc]

theorem foldl_depthAfter_leaves (depth : Nat) (leaves : List Leaf) :
    (leaves.map leaf).foldl depthAfter depth = depth := by
  induction leaves with
  | nil => rfl
  | cons l leaves ih => exact ih

theorem logFrom_leaves (depth : Nat) (leaves : List Leaf) :
    logFrom depth (leaves.map leaf) = leaves.map (Entry.leaf depth) := by
  induction leaves with
  | nil => rfl
  | cons l leaves ih => rw [List.map_cons, List.map_cons, ← ih]; rfl

theorem filterMap_leaf?_leaves (leaves : List Leaf) : (leaves.map leaf).filterMap leaf? = leaves := by
  rw [List.filterMap_map]
  exact List.filterMap_some

end Event

namespace Entry

def leaf? : Entry → Option Leaf
  | leaf _ l => some l
  | scope .. => none

def isScope : Entry → Bool
  | leaf .. => false
  | scope .. => true

end Entry

private theorem Event.filterMap_leaf?_logFrom (depth : Nat) (es : List Event) :
    (logFrom depth es).filterMap Entry.leaf? = es.filterMap leaf? := by
  induction es generalizing depth with
  | nil => rfl
  | cons e es ih =>
    cases e <;> simp [logFrom, entries, ih, List.filterMap_cons, Entry.leaf?, leaf?]

theorem Event.countP_isScope_logFrom (depth : Nat) (es : List Event) :
    (logFrom depth es).countP Entry.isScope = es.countP isOpened := by
  induction es generalizing depth with
  | nil => rfl
  | cons e es ih =>
    cases e <;> simp [logFrom, entries, ih, List.countP_cons, Entry.isScope, isOpened]

/-! ### Walks -/

private theorem Token.walkListOnto_append (out : Array Entry) (depth : Nat) (ts us : List Token) :
    walkListOnto out depth (ts ++ us) = walkListOnto (walkListOnto out depth ts) depth us := by
  induction ts generalizing out with
  | nil => rfl
  | cons t ts ih => simp only [List.cons_append, walkListOnto, ih]

namespace Scope

@[simp] theorem label_push (s : Scope) (t : Token) : (s.push t).label = s.label := by
  cases s
  rfl

@[simp] theorem toList_tokens_push (s : Scope) (t : Token) : (s.push t).tokens.toList = s.tokens.toList ++ [t] := by
  cases s
  simp [push]

theorem toList_tokens_append (s other : Scope) :
    (s.append other).tokens.toList = s.tokens.toList ++ other.tokens.toList := by
  rw [append, ← Array.foldl_toList]
  generalize other.tokens.toList = ts
  induction ts generalizing s with
  | nil => simp
  | cons t ts ih => rw [List.foldl_cons, ih, toList_tokens_push, List.append_assoc, List.singleton_append]

private theorem walkOnto_eq (s : Scope) (out : Array Entry) (depth : Nat) :
    s.walkOnto out depth = Token.walkListOnto out depth s.tokens.toList := by
  obtain ⟨label, ⟨tokens⟩, children⟩ := s
  rfl

private theorem walkOnto_push (s : Scope) (t : Token) (out : Array Entry) (depth : Nat) :
    (s.push t).walkOnto out depth = t.walkOnto (s.walkOnto out depth) depth := by
  rw [walkOnto_eq, walkOnto_eq, toList_tokens_push, Token.walkListOnto_append]
  rfl

end Scope

mutual

private theorem Token.flattenOnto_eq_walkOnto (entries : Array Entry) (depth : Nat) :
    (t : Token) → t.flattenOnto (entries.filterMap Entry.leaf?) = (t.walkOnto entries depth).filterMap Entry.leaf?
  | .leaf l => by simp [Token.flattenOnto, Token.walkOnto, Entry.leaf?]
  | .marker line indent scope => by
    have h := Scope.flattenOnto_eq_walkOnto (entries.push (.scope depth line indent scope.label)) (depth + 1) scope
    rw [Array.filterMap_push_none (by rfl) (by simp)] at h
    exact h

private theorem Scope.flattenOnto_eq_walkOnto (entries : Array Entry) (depth : Nat) :
    (s : Scope) → s.flattenOnto (entries.filterMap Entry.leaf?) = (s.walkOnto entries depth).filterMap Entry.leaf?
  | ⟨_, ⟨tokens⟩, _⟩ => Token.flattenListOnto_eq_walkListOnto entries depth tokens

private theorem Token.flattenListOnto_eq_walkListOnto (entries : Array Entry) (depth : Nat) :
    (ts : List Token) →
      Token.flattenListOnto (entries.filterMap Entry.leaf?) ts =
        (Token.walkListOnto entries depth ts).filterMap Entry.leaf?
  | [] => rfl
  | t :: ts => by
    rw [Token.flattenListOnto, Token.flattenOnto_eq_walkOnto entries depth t,
      Token.flattenListOnto_eq_walkListOnto (t.walkOnto entries depth) depth ts]
    rfl

end

/-- The leaves of a tree are those met on its walk, in the same order. -/
theorem Scope.flatten_eq_walk (s : Scope) : s.flatten = s.walk.filterMap Entry.leaf? :=
  Scope.flattenOnto_eq_walkOnto #[] 0 s

/-! ### Finished drafts -/

namespace Draft

/-- The places of the open scopes, innermost first. -/
def frames (d : Draft) : List Frame := d.nested.map fun p => ⟨p.line, p.indent⟩

@[simp] theorem frames_push (d : Draft) (t : Token) : (d.push t).frames = d.frames := by
  obtain ⟨root, _ | ⟨⟨scope, line, indent⟩, rest⟩⟩ := d <;> rfl

@[simp] theorem frames_openScope (d : Draft) (line indent : UInt32) :
    (d.openScope line indent).frames = ⟨line, indent⟩ :: d.frames := rfl

@[simp] theorem frames_closeScope (d : Draft) : d.closeScope.frames = d.frames.tail := by
  obtain ⟨root, _ | ⟨⟨scope, line, indent⟩, rest⟩⟩ := d
  · rfl
  · exact frames_push ..

theorem closeScope_of_nil {d : Draft} (h : d.nested = []) : d.closeScope = d := by
  obtain ⟨root, nested⟩ := d
  subst h
  rfl

theorem frames_foldl_leaves (d : Draft) (leaves : List Leaf) :
    ((leaves.map Event.leaf).foldl apply d).frames = d.frames := by
  induction leaves generalizing d with
  | nil => rfl
  | cons l leaves ih =>
    rw [List.map_cons, List.foldl_cons, ih]
    exact frames_push ..

theorem length_frames (d : Draft) : d.frames.length = d.nested.length := by
  simp [frames]

private theorem length_nested_apply (d : Draft) (e : Event) :
    (d.apply e).nested.length = e.depthAfter d.nested.length := by
  cases e <;> simp [apply, ← length_frames, Event.depthAfter]

theorem length_nested_ofEvents (events : Array Event) :
    (ofEvents events).nested.length = events.toList.foldl Event.depthAfter 0 := by
  rw [ofEvents, ← Array.foldl_toList]
  suffices h : ∀ (es : List Event) (d : Draft),
      (es.foldl apply d).nested.length = es.foldl Event.depthAfter d.nested.length from h _ {}
  intro es
  induction es with
  | nil => intro d; rfl
  | cons e es ih => intro d; rw [List.foldl_cons, ih, length_nested_apply]; rfl

/-- Closing a scope leaves the finished tree as it is. -/
theorem finish_closeScope (d : Draft) : d.closeScope.finish = d.finish := by
  obtain ⟨root, _ | ⟨⟨scope, line, indent⟩, _ | ⟨⟨scope', line', indent'⟩, rest⟩⟩⟩ := d <;> rfl

/-- Opening a scope has the effect of appending the marker of an empty scope. -/
theorem finish_openScope (d : Draft) (line indent : UInt32) :
    (d.openScope line indent).finish = (d.push (.marker line indent .empty)).finish := by
  obtain ⟨root, _ | ⟨⟨scope, line', indent'⟩, rest⟩⟩ := d <;> rfl

/-- The walk of the part of a tree that surrounds an open place. -/
private def openWalk (root : Scope) : List OpenScope → Array Entry
  | [] => root.walk
  | ⟨scope, line, indent⟩ :: rest =>
    scope.walkOnto ((openWalk root rest).push (.scope rest.length line indent scope.label)) (rest.length + 1)

private theorem walk_closeWith (root : Scope) (t : Token) (nested : List OpenScope) :
    (closeWith root t nested).walk = t.walkOnto (openWalk root nested) nested.length := by
  -- each scope goes into a marker at the end of the scope around it
  induction nested generalizing t with
  | nil => exact Scope.walkOnto_push root t #[] 0
  | cons p rest ih =>
    obtain ⟨scope, line, indent⟩ := p
    rw [closeWith, ih, Token.walkOnto, Scope.label_push, Scope.walkOnto_push]
    rfl

private theorem walk_finish (d : Draft) : d.finish.walk = openWalk d.root d.nested := by
  obtain ⟨root, _ | ⟨⟨scope, line, indent⟩, rest⟩⟩ := d
  · rfl
  · exact walk_closeWith root _ rest

/-- A token appended to the innermost scope comes last in the walk of the finished tree. -/
theorem walk_finish_push (d : Draft) (t : Token) :
    (d.push t).finish.walk = t.walkOnto d.finish.walk d.nested.length := by
  rw [walk_finish, walk_finish]
  obtain ⟨root, _ | ⟨⟨scope, line, indent⟩, rest⟩⟩ := d
  · exact Scope.walkOnto_push root t #[] 0
  · simp only [push, openWalk, Scope.label_push, Scope.walkOnto_push]
    rfl

private theorem walk_finish_apply (d : Draft) (e : Event) :
    (d.apply e).finish.walk.toList = d.finish.walk.toList ++ e.entries d.nested.length := by
  cases e with
  | leaf l =>
    rw [apply, walk_finish_push]
    simp [Token.walkOnto, Event.entries]
  | opened line indent =>
    rw [apply, finish_openScope, walk_finish_push]
    simp [Token.walkOnto, Scope.empty, Scope.labelled, Scope.walkOnto, Token.walkListOnto, Event.entries]
  | closed =>
    rw [apply, finish_closeScope]
    simp [Event.entries]

private theorem walk_finish_foldl (d : Draft) (es : List Event) :
    (es.foldl apply d).finish.walk.toList = d.finish.walk.toList ++ Event.logFrom d.nested.length es := by
  induction es generalizing d with
  | nil => simp [Event.logFrom]
  | cons e es ih =>
    rw [List.foldl_cons, ih, walk_finish_apply, length_nested_apply, List.append_assoc]
    rfl

end Draft

/-- The walk of the tree of a history is its log. -/
theorem Scope.walk_ofEvents (events : Array Event) :
    (Scope.ofEvents events).walk.toList = Event.log events.toList := by
  rw [Scope.ofEvents, Draft.ofEvents, ← Array.foldl_toList, Draft.walk_finish_foldl]
  rfl

theorem Scope.flatten_ofEvents (events : Array Event) :
    (Scope.ofEvents events).flatten.toList = events.toList.filterMap Event.leaf? := by
  rw [Scope.flatten_eq_walk, Array.toList_filterMap, Scope.walk_ofEvents, Event.log, Event.filterMap_leaf?_logFrom]

/-! ### Markers pushed at once -/

/-- Append a token to the scope reached by taking `depth` times the scope of the last token. -/
def Scope.pushAt (s : Scope) (t : Token) : Nat → Scope
  | 0 => s.push t
  | depth + 1 =>
    match s.tokens.back? with
    | some (.marker line indent inner) =>
      { s with tokens := s.tokens.pop.push (.marker line indent (inner.pushAt t depth)) }
    | _ => s

/-- A tree under construction that is whole at any time: the marker of a scope is pushed when the scope opens. -/
structure EagerDraft where
  root : Scope := .labelled Scope.fileLabel
  /-- Number of open scopes. -/
  depth : Nat := 0

def EagerDraft.apply (d : EagerDraft) : Event → EagerDraft
  | .leaf leaf => { d with root := d.root.pushAt (.leaf leaf) d.depth }
  | .opened line indent => ⟨d.root.pushAt (.marker line indent .empty) d.depth, d.depth + 1⟩
  | .closed => { d with depth := d.depth - 1 }

/-- The tree of a history, with each marker pushed at once. -/
def Scope.ofEventsEagerly (history : List Event) : Scope := (history.foldl EagerDraft.apply {}).root

private theorem Scope.pushAt_push_marker (s inner : Scope) (line indent : UInt32) (t : Token) (depth : Nat) :
    (s.push (.marker line indent inner)).pushAt t (depth + 1) =
      s.push (.marker line indent (inner.pushAt t depth)) := by
  cases s
  simp [push, pushAt, Token.isMarker]

namespace Draft

private theorem pushAt_closeWith (root scope : Scope) (line indent : UInt32) (t : Token) (depth : Nat)
    (nested : List OpenScope) :
    (closeWith root (.marker line indent scope) nested).pushAt t (nested.length + 1 + depth) =
      closeWith root (.marker line indent (scope.pushAt t depth)) nested := by
  induction nested generalizing scope line indent depth with
  | nil =>
    rw [closeWith, closeWith, List.length_nil, Nat.zero_add, Nat.add_comm 1 depth]
    exact Scope.pushAt_push_marker ..
  | cons p rest ih =>
    rw [closeWith, closeWith, ← Scope.pushAt_push_marker, ← ih]
    congr 1
    simp only [List.length_cons]
    omega

private theorem finish_push (d : Draft) (t : Token) : (d.push t).finish = d.finish.pushAt t d.nested.length := by
  obtain ⟨root, _ | ⟨⟨scope, line, indent⟩, rest⟩⟩ := d
  · rfl
  · exact (pushAt_closeWith root scope line indent t 0 rest).symm

private def toEager (d : Draft) : EagerDraft := ⟨d.finish, d.nested.length⟩

private theorem toEager_apply (d : Draft) (e : Event) : (d.apply e).toEager = d.toEager.apply e := by
  have hd := length_nested_apply d e
  cases e with
  | leaf l =>
    simp only [toEager, hd]
    simp only [apply, finish_push, EagerDraft.apply, Event.depthAfter]
  | opened line indent =>
    simp only [toEager, hd]
    simp only [apply, finish_openScope, finish_push, EagerDraft.apply, Event.depthAfter]
  | closed =>
    simp only [toEager, hd]
    simp only [apply, finish_closeScope, EagerDraft.apply, Event.depthAfter]

private theorem toEager_foldl (d : Draft) (es : List Event) :
    (es.foldl apply d).toEager = es.foldl EagerDraft.apply d.toEager := by
  induction es generalizing d with
  | nil => rfl
  | cons e es ih => rw [List.foldl_cons, List.foldl_cons, ih, toEager_apply]

end Draft

/-- Attaching each scope when it closes gives the tree that pushing its marker at once gives. -/
theorem Scope.ofEvents_eq_ofEventsEagerly (events : Array Event) :
    Scope.ofEvents events = Scope.ofEventsEagerly events.toList := by
  rw [Scope.ofEvents, Draft.ofEvents, ← Array.foldl_toList]
  exact congrArg EagerDraft.root (Draft.toEager_foldl {} events.toList)

end LexTree
