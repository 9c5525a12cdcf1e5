import LexTree.Token

/-!
# Operations on a scope

A scope is built and changed one token at a time.  Appending and popping keep the marker positions up to date as they
go; inserting, deleting and regrouping in the middle read them off the tokens again.  An operation whose index or
range does not fit reports it; what it leaves of the scope is part of the report.
-/

namespace LexTree

/-- A positional operation that does not fit the scope. -/
inductive ScopeError where
  | indexOutOfRange (index length : Nat)
  | invalidRange (first last length : Nat)
  | notALeaf (index : Nat)
deriving DecidableEq

/-- The text of an error. -/
def ScopeError.message : ScopeError → String
  | indexOutOfRange index length => s!"index {index} out of range for scope of length {length}"
  | invalidRange first last length => s!"invalid range {first}..={last} for scope of length {length}"
  | notALeaf index => s!"token {index} opens a scope, not a leaf"

namespace Scope

/-- The label of a scope that nobody has named. -/
def unknownLabel : String := "__UNKNOWN__"

/-- The label of the outermost scope of a file. -/
def fileLabel : String := "File"

/-- The positions of the markers among `tokens`, in ascending order. -/
def markerPositions (tokens : Array Token) : Array Nat :=
  (Array.range tokens.size).filter fun i => tokens[i]?.any Token.isMarker

/-! ### Building -/

/-- A scope without tokens. -/
def labelled (label : String) : Scope := ⟨label, #[], #[]⟩

/-- A scope without tokens or a name. -/
def empty : Scope := labelled unknownLabel

instance : Inhabited Scope := ⟨empty⟩

/-- The scope of a token sequence. -/
def ofTokens (tokens : Array Token) : Scope :=
  ⟨unknownLabel, tokens, markerPositions tokens⟩

/-- Number of direct tokens, markers included. -/
def size (s : Scope) : Nat := s.tokens.size

def isEmpty (s : Scope) : Bool := s.tokens.isEmpty

/-- Number of scopes directly inside. -/
def childCount (s : Scope) : Nat := s.children.size

def withLabel (s : Scope) (label : String) : Scope := { s with label }

/-- Append a token. -/
def push (s : Scope) (t : Token) : Scope :=
  let ⟨label, tokens, children⟩ := s
  let children := if t.isMarker then children.push tokens.size else children
  ⟨label, tokens.push t, children⟩

/-- Append the tokens of `other`, in order. -/
def append (s other : Scope) : Scope :=
  other.tokens.foldl push s

/-- The scope of several token sequences, one after the other. -/
def ofSequences (sequences : List (Array Token)) : Scope :=
  sequences.foldl (fun s tokens => tokens.foldl push s) empty

/-! ### Results of operations -/

/-- The scope that an operation leaves, whether it was refused or not. -/
def left {α : Type} : EStateM.Result ScopeError Scope α → Scope
  | .ok _ s => s
  | .error _ s => s

/-- The result of an operation, with its answer put in another way. -/
def answering {α β : Type} (f : α → β) : EStateM.Result ScopeError Scope α → EStateM.Result ScopeError Scope β
  | .ok a s => .ok (f a) s
  | .error e s => .error e s

/-! ### Reading and editing by position -/

/-- The token at `index`. -/
def get (s : Scope) (index : Nat) : Except ScopeError Token :=
  match s.tokens[index]? with
  | some t => .ok t
  | none => .error (.indexOutOfRange index s.size)

/-- Put a token before position `index`; the position after the last token appends. -/
def insert (s : Scope) (t : Token) (index : Nat) : EStateM.Result ScopeError Scope Unit :=
  if s.size < index then .error (.indexOutOfRange index s.size) s
  else if index = s.size then .ok () (s.push t)
  else
    let tokens := s.tokens.insertIdxIfInBounds index t
    .ok () ⟨s.label, tokens, markerPositions tokens⟩

/-- Take out the token at `index`. -/
def delete (s : Scope) (index : Nat) : EStateM.Result ScopeError Scope Token :=
  match s.tokens[index]? with
  | some t =>
    let tokens := s.tokens.eraseIdxIfInBounds index
    .ok t ⟨s.label, tokens, markerPositions tokens⟩
  | none => .error (.indexOutOfRange index s.size) s

/-- Change the leaf at `index`; gives the leaf as it was. -/
def modifyLeaf (s : Scope) (index : Nat) (f : Leaf → Leaf) : EStateM.Result ScopeError Scope Leaf :=
  match s.tokens[index]? with
  | some (.leaf leaf) => .ok leaf { s with tokens := s.tokens.setIfInBounds index (.leaf (f leaf)) }
  | some (.marker ..) => .error (.notALeaf index) s
  | none => .error (.indexOutOfRange index s.size) s

/-- The token appended last. -/
def last? (s : Scope) : Option Token := s.tokens.back?

/-- Take out the token appended last, if there is one. -/
def pop (s : Scope) : Option Token × Scope :=
  match s.tokens.back? with
  | some t =>
    let children := if t.isMarker then s.children.pop else s.children
    (some t, ⟨s.label, s.tokens.pop, children⟩)
  | none => (none, s)

/-- Name the scope of the token appended last, if that is a marker; gives whether it is one. -/
def relabelLast (s : Scope) (label : String) : Option Bool × Scope :=
  match s.pop with
  | (some (.marker line indent scope), rest) => (some true, rest.push (.marker line indent (scope.withLabel label)))
  | (some (.leaf leaf), rest) => (some false, rest.push (.leaf leaf))
  | (none, rest) => (none, rest)

/-! ### Nested scopes -/

/-- The `n`-th scope directly inside, with its place among the tokens. -/
def childEntry (s : Scope) (n : Nat) : Except ScopeError (Nat × UInt32 × UInt32 × Scope) :=
  match s.children[n]? with
  | none => .error (.indexOutOfRange n s.childCount)
  | some position =>
    match s.tokens[position]? with
    | some (.marker line indent scope) => .ok (position, line, indent, scope)
    | _ => .error (.indexOutOfRange n s.childCount)

/-- The `n`-th scope directly inside. -/
def child (s : Scope) (n : Nat) : Except ScopeError Scope :=
  (s.childEntry n).map (·.2.2.2)

/-- Put a marker in the place of the one at `position`. -/
def setMarker (s : Scope) (position : Nat) (line indent : UInt32) (inner : Scope) : Scope :=
  { s with tokens := s.tokens.setIfInBounds position (.marker line indent inner) }

/-- What comes of an edit behind the marker at `position`, for the scope around it; whether it was refused or not, the
marker has the scope that the edit leaves. -/
def around {α : Type} (s : Scope) (position : Nat) (line indent : UInt32) :
    EStateM.Result ScopeError Scope α → EStateM.Result ScopeError Scope α
  | .ok a inner => .ok a (s.setMarker position line indent inner)
  | .error e inner => .error e (s.setMarker position line indent inner)

/-- Run an edit on the scope reached by taking the `n`-th nested scope for each `n` of the path. -/
def editAt {α : Type} (f : Scope → EStateM.Result ScopeError Scope α) :
    List Nat → Scope → EStateM.Result ScopeError Scope α
  | [], s => f s
  | n :: path, s =>
    match s.childEntry n with
    | .ok (position, line, indent, inner) => s.around position line indent (editAt f path inner)
    | .error e => .error e s

/-- Move the tokens from `first` to `last` into a new nested scope, whose marker stands where the first of them
stood and takes its line and indent. -/
def scopify (s : Scope) (first last : Nat) : EStateM.Result ScopeError Scope Unit :=
  if h : first ≤ last ∧ last < s.tokens.size then
    have : first < s.tokens.size := by omega
    let head := s.tokens[first]
    let moved := s.tokens.extract first (last + 1)
    let tokens := s.tokens.extract 0 first
      |>.push (.marker head.line head.indent (ofTokens moved))
      |>.append (s.tokens.extract (last + 1) s.tokens.size)
    .ok () ⟨s.label, tokens, markerPositions tokens⟩
  else .error (.invalidRange first last s.size) s

/-- Regroup the whole scope into one nested scope, `n` times over. -/
def wrap (s : Scope) : Nat → EStateM.Result ScopeError Scope Unit
  | 0 => .ok () s
  | n + 1 =>
    match s.scopify 0 (s.size - 1) with
    | .ok () s => s.wrap n
    | .error e s => .error e s

/-- The scope of the same tokens, without its name. -/
def rebuild (s : Scope) : Scope := ofTokens s.tokens

end Scope

end LexTree
