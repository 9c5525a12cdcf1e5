import LexTree.Text.Quoted
import LexTree.Token

/-!
# Inspection text of a scope tree

The whole tree on one line, field by field, with the kind of every part spelled out.  Two dots at the end of a scope
stand for the marker positions, which are not shown.
-/

namespace LexTree

/-- The fields of a leaf. -/
def Leaf.inspect (leaf : Leaf) : String :=
  "Leaf \x7b line: " ++ toString leaf.line.toNat ++ ", indent: " ++ toString leaf.indent.toNat ++ ", rule: "
    ++ leaf.rule.title ++ ", symbolic_name: " ++ quote leaf.name ++ ", text: " ++ quote leaf.text ++ " \x7d"

mutual

/-- Append the inspection text of a token. -/
def Token.inspectOnto (out : String) : Token → String
  | .leaf leaf => out ++ "Leaf(" ++ leaf.inspect ++ ")"
  | .marker line indent scope =>
    scope.inspectOnto (out ++ "Marker(ScopeMarker \x7b line: " ++ toString line.toNat ++ ", indent: "
      ++ toString indent.toNat ++ ", scope: ") ++ " \x7d)"

/-- Append the inspection text of a scope. -/
def Scope.inspectOnto (out : String) : Scope → String
  | ⟨label, ⟨tokens⟩, _⟩ =>
    Token.inspectListOnto (out ++ "Scope \x7b label: " ++ quote label ++ ", tokens: [") tokens ++ "], .. \x7d"

/-- Append the inspection texts of tokens, with commas between them. -/
def Token.inspectListOnto (out : String) : List Token → String
  | [] => out
  | [t] => t.inspectOnto out
  | t :: ts => Token.inspectListOnto (t.inspectOnto out ++ ", ") ts

end

/-- The inspection text of a scope. -/
def Scope.inspect (s : Scope) : String := s.inspectOnto ""

end LexTree
