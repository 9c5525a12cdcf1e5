import LexTree.Scope.Walk
import LexTree.Text.Quoted

/-!
# Text dumps of a scope tree

The tree dump has a line for each leaf and each scope, two spaces further in for each level:

```text
scope File
  1:0 KEYWORD CLASS "class"
  1:0 SYMBOL LCURLY "{"
  scope __UNKNOWN__ (1:0)
    1:0 KEYWORD INT "int"
```

The flat dump has a line for each leaf in source order, its columns divided by tabs.
-/

namespace LexTree

/-- Line and indent of a token. -/
def placeText (line indent : UInt32) : String :=
  toString line.toNat ++ ":" ++ toString indent.toNat

/-! ### The tree dump -/

/-- Append the space that sets a line `depth` levels in. -/
def indentOnto (out : String) (depth : Nat) : String :=
  depth.fold (fun _ _ out => out ++ "  ") out

/-- The line of a leaf in the tree dump, without its indentation. -/
def Leaf.dumpLine (leaf : Leaf) : String :=
  placeText leaf.line leaf.indent ++ " " ++ leaf.rule.text ++ " " ++ leaf.name ++ " " ++ quote leaf.text ++ "\n"

mutual

/-- Append the lines of a token `depth` levels in. -/
def Token.dumpOnto (out : String) (depth : Nat) : Token → String
  | .leaf leaf => indentOnto out depth ++ leaf.dumpLine
  | .marker line indent scope =>
    let head := indentOnto out depth ++ "scope " ++ scope.label ++ " (" ++ placeText line indent ++ ")\n"
    scope.dumpOnto head (depth + 1)

/-- Append the lines of the tokens of a scope `depth` levels in. -/
def Scope.dumpOnto (out : String) (depth : Nat) : Scope → String
  | ⟨_, ⟨tokens⟩, _⟩ => Token.dumpListOnto out depth tokens

/-- Append the lines of a token sequence `depth` levels in. -/
def Token.dumpListOnto (out : String) (depth : Nat) : List Token → String
  | [] => out
  | t :: ts => Token.dumpListOnto (t.dumpOnto out depth) depth ts

end

/-- The tree dump of a scope. -/
def Scope.dump (s : Scope) : String :=
  s.dumpOnto ("scope " ++ s.label ++ "\n") 1

/-! ### The flat dump -/

/-- The line of a leaf in the flat dump. -/
def Leaf.flatLine (leaf : Leaf) : String :=
  placeText leaf.line leaf.indent ++ "\t" ++ leaf.rule.text ++ "\t" ++ leaf.name ++ "\t" ++ quote leaf.text ++ "\n"

/-- The flat dump of a scope. -/
def Scope.dumpFlat (s : Scope) : String :=
  s.flatten.foldl (fun out leaf => out ++ leaf.flatLine) ""

end LexTree
