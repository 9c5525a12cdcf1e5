import LexTree.Language
import LexTree.Text.Quoted

/-!
# Languages put together part by part

A configuration starts empty and is given its parts one after the other; a part given again replaces the earlier one.
A predicate that was never given holds nowhere.
-/

namespace LexTree

structure Config where
  name : String := ""
  symbols : SymbolTable := {}
  keywords : KeywordTable := {}
  isWordChar : Option (Char → Bool) := none
  predicate : Edge → Option Predicate := fun _ => none

namespace Config

/-- Give the name, the tables and the characters of words. -/
def general (cfg : Config) (name : String) (symbols : SymbolTable) (keywords : KeywordTable)
    (isWordChar : Char → Bool) : Config :=
  { cfg with name, symbols, keywords, isWordChar := some isWordChar }

/-- Give both predicates of a family. -/
def family (cfg : Config) (f : Family) (opens closes : Predicate) : Config :=
  { cfg with
    predicate := fun edge =>
      if edge = .opens f then some opens else if edge = .closes f then some closes else cfg.predicate edge }

/-- Whether a part has not been given. -/
def lacks (cfg : Config) : Part → Bool
  | .name => cfg.name.isEmpty
  | .wordChar => cfg.isWordChar.isNone
  | .predicate edge => (cfg.predicate edge).isNone

/-- The parts that have not been given. -/
def missing (cfg : Config) : List Part := Part.all.filter cfg.lacks

/-- The configuration as a language. -/
def toLanguage (cfg : Config) : Language where
  name := cfg.name
  symbols := cfg.symbols
  keywords := cfg.keywords
  isWordChar := cfg.isWordChar.getD fun _ => false
  predicate := fun edge => (cfg.predicate edge).getD .never
  missing := cfg.missing

/-- The configuration on one line: its name, the sizes of its tables and the parts that have not been given. -/
def inspect (cfg : Config) : String :=
  "LanguageConfig \x7b name: " ++ quote cfg.name ++ ", symbols: " ++ toString cfg.symbols.size ++ ", keywords: "
    ++ toString cfg.keywords.size ++ ", missing: [" ++ ", ".intercalate (cfg.missing.map Part.title) ++ "] \x7d"

end Config

end LexTree
