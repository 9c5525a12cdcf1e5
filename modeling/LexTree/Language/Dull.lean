import LexTree.Language

/-!
# Dull

A language without strings, comments or scopes: every run of word characters is an identifier, and every other
character a symbol.
-/

namespace LexTree.Dull

def predicate : Edge → Predicate
  | .closes .string | .closes .comment => .always
  | _ => .never

/-- Dull as a language. -/
def language : Language where
  name := "dull"
  isWordChar := isWordChar
  predicate := predicate

end LexTree.Dull
