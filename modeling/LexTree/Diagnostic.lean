import LexTree.Text.Case

/-!
# Diagnostics

Problems in the text that a scan reports and recovers from.
-/

namespace LexTree

inductive Problem where
  /-- A scope end was met with no scope open; the closing token stays in the outermost scope. -/
  | unbalancedScope
  /-- The text ended inside a string or comment; what there is of it is kept. -/
  | unterminated (name : String)
deriving DecidableEq

/-- A problem, the line where it starts (from 1) and the index of the character where it was found. -/
structure Diagnostic where
  problem : Problem
  line : UInt32
  index : Nat
deriving DecidableEq

namespace Diagnostic

def message (d : Diagnostic) : String :=
  match d.problem with
  | .unbalancedScope => "scope end with no open scope"
  | .unterminated name => "unterminated " ++ lower name ++ " at end of input"

/-- The message with its line. -/
def display (d : Diagnostic) : String :=
  "line " ++ toString d.line.toNat ++ ": " ++ d.message

end Diagnostic

end LexTree
