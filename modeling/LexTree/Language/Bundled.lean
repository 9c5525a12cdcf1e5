import LexTree.Language.Dull
import LexTree.Language.Java
import LexTree.Language.Python

/-!
# Bundled languages

The languages that can be asked for by name.
-/

namespace LexTree

/-- A name that no bundled language has. -/
structure UnknownLanguage where
  name : String
deriving DecidableEq

namespace Bundled

/-- The names of the bundled languages, in the order in which they are listed. -/
def names : List String := ["java", "python", "dull"]

/-- The language of a name; the case of ASCII letters does not matter. -/
def find (name : String) : Except UnknownLanguage Language :=
  match name.toLower with
  | "java" => .ok Java.language
  | "python" => .ok Python.language
  | "dull" => .ok Dull.language
  | _ => .error ⟨name⟩

end Bundled

/-- The text of the error. -/
def UnknownLanguage.message (e : UnknownLanguage) : String :=
  "unknown language `" ++ e.name ++ "` (known: " ++ ", ".intercalate Bundled.names ++ ")"

end LexTree
