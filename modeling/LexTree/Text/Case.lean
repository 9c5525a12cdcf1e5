import LexTree.Unicode.CaseIgnorable
import LexTree.Unicode.Cased
import LexTree.Unicode.Lowercase
import LexTree.Unicode.Uppercase

/-!
# Upper and lower case of a text

Both follow the full mappings, in which one character may become several.  Lower case has one rule that looks at the
surroundings: a capital sigma that ends a word becomes the final sigma.
-/

namespace LexTree

/-- The text in upper case. -/
def upper (s : String) : String :=
  s.foldl (fun out c => (CaseMap.uppercase.apply c).foldl String.push out) ""

/-- Whether the first character that is not case-ignorable is cased. -/
def casedAhead (cs : List Char) : Bool :=
  match cs.dropWhile CharSet.caseIgnorable.contains with
  | c :: _ => CharSet.cased.contains c
  | [] => false

/-- A capital sigma in lower case: final where a word precedes it and none goes on after it.  The characters
before it are listed from the nearest. -/
def lowerSigma (before after : List Char) : Char :=
  if casedAhead before && !casedAhead after then 'ς' else 'σ'

/-- Lower case of the rest of a text whose earlier characters, from the nearest, are `before`. -/
def lowerAfter (before : List Char) : List Char → List Char
  | [] => []
  | c :: after =>
    let image := if c = 'Σ' then [lowerSigma before after] else CaseMap.lowercase.apply c
    image ++ lowerAfter (c :: before) after

/-- The text in lower case. -/
def lower (s : String) : String :=
  String.ofList (lowerAfter [] s.toList)

end LexTree
