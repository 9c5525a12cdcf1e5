import LexTree.Scope.Basic

/-!
# Scopes from events

A scan emits its result as a sequence of events: leaves, and the openings and closings of scopes.  The tree is read off
the sequence with a stack.  The scopes that are still open stand beside the outermost one, and a scope that closes moves
into a marker at the end of the scope around it.  Nothing else is pushed there while it is open, so the marker lands
where the scope was opened.  Scopes left open at the end are closed.
-/

namespace LexTree

/-- One thing that a scan emits. -/
inductive Event where
  | leaf (leaf : Leaf)
  | opened (line indent : UInt32)
  | closed
deriving DecidableEq

/-- A scope that has not been closed, with the place where it was opened. -/
structure OpenScope where
  scope : Scope
  line : UInt32
  indent : UInt32
deriving DecidableEq

/-- A tree under construction: the outermost scope, and the open scopes inside it, innermost first. -/
structure Draft where
  root : Scope := .labelled Scope.fileLabel
  nested : List OpenScope := []
deriving DecidableEq

namespace Draft

/-- Append a token to the innermost scope. -/
def push (d : Draft) (t : Token) : Draft :=
  match d with
  | ⟨root, []⟩ => ⟨root.push t, []⟩
  | ⟨root, ⟨scope, line, indent⟩ :: rest⟩ => ⟨root, ⟨scope.push t, line, indent⟩ :: rest⟩

/-- Open a scope at a place. -/
def openScope (d : Draft) (line indent : UInt32) : Draft :=
  { d with nested := ⟨.empty, line, indent⟩ :: d.nested }

/-- Close the innermost scope, if one is open. -/
def closeScope (d : Draft) : Draft :=
  match d with
  | ⟨root, []⟩ => ⟨root, []⟩
  | ⟨root, ⟨scope, line, indent⟩ :: rest⟩ => push ⟨root, rest⟩ (.marker line indent scope)

/-- Take in an event. -/
def apply (d : Draft) : Event → Draft
  | .leaf leaf => d.push (.leaf leaf)
  | .opened line indent => d.openScope line indent
  | .closed => d.closeScope

/-- Append `t` to the innermost scope and close every open scope, from the inside out. -/
def closeWith (root : Scope) (t : Token) : List OpenScope → Scope
  | [] => root.push t
  | ⟨scope, line, indent⟩ :: rest => closeWith root (.marker line indent (scope.push t)) rest

/-- The finished tree: every open scope is closed. -/
def finish (d : Draft) : Scope :=
  match d with
  | ⟨root, []⟩ => root
  | ⟨root, ⟨scope, line, indent⟩ :: rest⟩ => closeWith root (.marker line indent scope) rest

/-- The draft after a sequence of events. -/
def ofEvents (events : Array Event) : Draft := events.foldl apply {}

end Draft

/-- The tree of a sequence of events. -/
def Scope.ofEvents (events : Array Event) : Scope := (Draft.ofEvents events).finish

end LexTree
