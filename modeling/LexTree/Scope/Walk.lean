import LexTree.Scope.Basic

/-!
# Walking a scope tree

Three readings of a whole tree: its leaves from left to right, their number, and the preorder list of leaves and markers
with the depth of each.  The number of leaves is found from the marker positions, without looking at the leaves.
-/

namespace LexTree

mutual

/-- Append the leaves of a token to `out`. -/
def Token.flattenOnto (out : Array Leaf) : Token → Array Leaf
  | .leaf leaf => out.push leaf
  | .marker _ _ scope => scope.flattenOnto out

/-- Append the leaves of a scope to `out`, each marker giving way to its contents. -/
def Scope.flattenOnto (out : Array Leaf) : Scope → Array Leaf
  | ⟨_, ⟨tokens⟩, _⟩ => Token.flattenListOnto out tokens

/-- Append the leaves of a token sequence to `out`. -/
def Token.flattenListOnto (out : Array Leaf) : List Token → Array Leaf
  | [] => out
  | t :: ts => Token.flattenListOnto (t.flattenOnto out) ts

end

/-- The leaves of a scope, depth first. -/
def Scope.flatten (s : Scope) : Array Leaf := s.flattenOnto #[]

/-- Number of leaves in a scope and in every scope below it. -/
def Scope.totalSize (s : Scope) : Nat :=
  let addNested (n position : Nat) : Nat :=
    match _h : s.tokens[position]? with
    | some (.marker _ _ scope) => n + scope.totalSize
    | _ => n
  s.children.foldl addNested (s.tokens.size - s.children.size)
termination_by sizeOf s
decreasing_by
  obtain ⟨hi, h⟩ := Array.getElem?_eq_some_iff.1 _h
  have : sizeOf s.tokens[position] < sizeOf s.tokens := Array.sizeOf_lt_of_mem (Array.getElem_mem hi)
  rw [h] at this
  cases s
  simp at *
  omega

/-- One step of the preorder walk of a scope; the direct tokens of the scope have depth 0. -/
inductive Entry where
  | leaf (depth : Nat) (leaf : Leaf)
  | scope (depth : Nat) (line indent : UInt32) (label : String)
deriving DecidableEq

mutual

/-- Append the walk of a token at a depth to `out`: a marker comes before its contents. -/
def Token.walkOnto (out : Array Entry) (depth : Nat) : Token → Array Entry
  | .leaf leaf => out.push (.leaf depth leaf)
  | .marker line indent scope => scope.walkOnto (out.push (.scope depth line indent scope.label)) (depth + 1)

/-- Append the walk of the tokens of a scope at a depth to `out`. -/
def Scope.walkOnto (out : Array Entry) (depth : Nat) : Scope → Array Entry
  | ⟨_, ⟨tokens⟩, _⟩ => Token.walkListOnto out depth tokens

/-- Append the walk of a token sequence at a depth to `out`. -/
def Token.walkListOnto (out : Array Entry) (depth : Nat) : List Token → Array Entry
  | [] => out
  | t :: ts => Token.walkListOnto (t.walkOnto out depth) depth ts

end

/-- The preorder walk of a scope. -/
def Scope.walk (s : Scope) : Array Entry := s.walkOnto #[] 0

end LexTree
