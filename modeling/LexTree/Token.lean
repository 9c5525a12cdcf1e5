/-!
# Tokens and scopes

A scope is the token sequence of one nesting level.  A token is either a leaf, a classified piece of text, or a marker,
which owns the scope opened at its place; so a scan result is a plain tree.

Beside its tokens a scope keeps the ascending positions of its markers, so that the n-th nested scope is found without
a search.  Equality of scopes is decidable.
-/

namespace LexTree

/-! ### Rules and names -/

/-- Broad category of a leaf. -/
inductive Rule where
  | unidentified
  | keyword
  | symbol
  | other
deriving DecidableEq, Inhabited

namespace Rule

/-- The name of a rule in dumps. -/
def text : Rule → String
  | unidentified => "unidentified"
  | keyword => "KEYWORD"
  | symbol => "SYMBOL"
  | other => "OTHER"

/-- The name of a rule in inspection texts. -/
def title : Rule → String
  | unidentified => "Unidentified"
  | keyword => "Keyword"
  | symbol => "Symbol"
  | other => "Other"

end Rule

namespace SymbolicName

/-- A word that is no keyword. -/
def identifier : String := "IDENTIFIER"

/-- A character without an entry in the symbol table. -/
def unknown : String := "UNKNOWN"

def comment : String := "COMMENT"

def string : String := "STRING"

def whitespace : String := "WHITESPACE"

def newline : String := "NEWLINE"

/-- Carried by a leaf that has not been classified. -/
def unidentified : String := "Unidentified"

/-- Stands in for the rule of a marker. -/
def scopeToken : String := "SCOPE_TOKEN"

end SymbolicName

/-! ### Leaves -/

/-- A piece of text with its line (from 1), the indent level of that line, and its classification. -/
structure Leaf where
  line : UInt32
  indent : UInt32
  rule : Rule
  name : String
  text : String
deriving DecidableEq, Inhabited

namespace Leaf

/-- A leaf that has not been classified. -/
def plain (text : String) (line indent : UInt32) : Leaf :=
  ⟨line, indent, .unidentified, SymbolicName.unidentified, text⟩

/-- The leaf under another classification. -/
def classify (leaf : Leaf) (rule : Rule) (name : String) : Leaf :=
  { leaf with rule, name }

/-- Whether the leaf has been classified. -/
def isClassified (leaf : Leaf) : Bool :=
  leaf.rule ≠ .unidentified

end Leaf

/-! ### Tokens and scopes -/

mutual

/-- A leaf, or a marker that owns the scope opened at its place. -/
inductive Token where
  | leaf (leaf : Leaf)
  | marker (line indent : UInt32) (scope : Scope)

/-- The tokens of one nesting level, with the positions of the markers among them. -/
structure Scope where
  label : String
  tokens : Array Token
  children : Array Nat

end

namespace Token

/-- Whether the token opens a scope. -/
def isMarker : Token → Bool
  | leaf _ => false
  | marker .. => true

def line : Token → UInt32
  | leaf l => l.line
  | marker line _ _ => line

def indent : Token → UInt32
  | leaf l => l.indent
  | marker _ indent _ => indent

/-- The scope a marker owns. -/
def scope? : Token → Option Scope
  | leaf _ => none
  | marker _ _ scope => some scope

end Token

mutual

/-- Equality of tokens, decided together with that of scopes. -/
def Token.decEq : (a b : Token) → Decidable (a = b)
  | .leaf a, .leaf b => if h : a = b then isTrue (by rw [h]) else isFalse (by simpa using h)
  | .leaf _, .marker .. => isFalse (by simp)
  | .marker .., .leaf _ => isFalse (by simp)
  | .marker l i s, .marker l' i' s' =>
    if h : l = l' ∧ i = i' then
      match s.decEq s' with
      | isTrue hs => isTrue (by rw [h.1, h.2, hs])
      | isFalse hs => isFalse (by simp [hs])
    else isFalse (by simp only [Token.marker.injEq]; exact fun e => h ⟨e.1, e.2.1⟩)

/-- Equality of scopes: the same label, tokens and marker positions. -/
def Scope.decEq : (a b : Scope) → Decidable (a = b)
  | ⟨l, ⟨ts⟩, c⟩, ⟨l', ⟨ts'⟩, c'⟩ =>
    if h : l = l' ∧ c = c' then
      match Token.decEqList ts ts' with
      | isTrue hs => isTrue (by rw [h.1, h.2, hs])
      | isFalse hs => isFalse (by simp [hs])
    else isFalse (by simp only [Scope.mk.injEq]; exact fun e => h ⟨e.1, e.2.2⟩)

/-- Equality of token sequences. -/
def Token.decEqList : (a b : List Token) → Decidable (a = b)
  | [], [] => isTrue rfl
  | [], _ :: _ => isFalse (by simp)
  | _ :: _, [] => isFalse (by simp)
  | t :: ts, u :: us =>
    match t.decEq u with
    | isTrue h =>
      match Token.decEqList ts us with
      | isTrue hs => isTrue (by rw [h, hs])
      | isFalse hs => isFalse (by simp [hs])
    | isFalse h => isFalse (by simp [h])

end

instance : DecidableEq Token := Token.decEq

instance : DecidableEq Scope := Scope.decEq

end LexTree
