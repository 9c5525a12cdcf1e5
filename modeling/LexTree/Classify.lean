import LexTree.Table
import LexTree.Text.Char
import LexTree.Token

/-!
# Classification

The rule and symbolic name that a piece of text gets from the tables of a language.
-/

namespace LexTree

/-- A word is named by its keyword, or is an identifier. -/
def classifyWord (keywords : KeywordTable) (text : String) : Rule × String :=
  (.keyword, (keywords.label? text).getD SymbolicName.identifier)

/-- A newline and a blank have names of their own; any other text is named by the symbol table. -/
def classifySymbol (symbols : SymbolTable) (text : String) : Rule × String :=
  let listed := (Rule.symbol, (symbols.label? text).getD SymbolicName.unknown)
  match text.toList with
  | [c] =>
    if c = '\n' then (.other, SymbolicName.newline)
    else if isBlank c then (.other, SymbolicName.whitespace)
    else listed
  | _ => listed

/-- The delimiter of a scope is a keyword if it is listed as one, and a symbol otherwise. -/
def classifyDelimiter (keywords : KeywordTable) (symbols : SymbolTable) (text : String) : Rule × String :=
  if keywords.contains text then classifyWord keywords text else classifySymbol symbols text

end LexTree
