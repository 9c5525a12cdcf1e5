import LexTree.Text.Json
import LexTree.Token

/-!
# The JSON form of a scope tree

A scope is a record of its label and its tokens; a leaf and a marker are records told apart by their fields.  The
marker positions are not part of it.
-/

namespace LexTree

/-- A leaf as a record. -/
def Leaf.toJson (leaf : Leaf) : Json :=
  .record [("line", .number leaf.line.toNat), ("indent", .number leaf.indent.toNat), ("rule", .text leaf.rule.text),
    ("symbolic_name", .text leaf.name), ("text", .text leaf.text)]

mutual

/-- A leaf, or a marker as the record of its place and its scope. -/
def Token.toJson : Token → Json
  | .leaf leaf => leaf.toJson
  | .marker line indent scope =>
    .record [("line", .number line.toNat), ("indent", .number indent.toNat), ("scope", scope.toJson)]

/-- A scope as the record of its label and tokens. -/
def Scope.toJson : Scope → Json
  | ⟨label, ⟨tokens⟩, _⟩ => .record [("label", .text label), ("tokens", .list (Token.toJsonList tokens))]

/-- The tokens one by one. -/
def Token.toJsonList : List Token → List Json
  | [] => []
  | t :: ts => t.toJson :: Token.toJsonList ts

end

end LexTree
