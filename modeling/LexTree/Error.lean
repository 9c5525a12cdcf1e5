import LexTree.Scratch

/-!
# Errors that stop a scan

Only what makes a scan meaningless is an error: a language with parts missing, an indent width of zero, or a predicate
that misuses its scratch state.  Problems in the text come back as diagnostics.
-/

namespace LexTree

/-- One of the six predicates of a language: where a family's constructs open, and where they close. -/
inductive Edge where
  | opens (family : Family)
  | closes (family : Family)
deriving DecidableEq

namespace Edge

/-- Every edge, family by family. -/
def all : List Edge := Family.all.flatMap fun f => [opens f, closes f]

def text : Edge → String
  | opens f => f.text ++ " start"
  | closes f => f.text ++ " end"

/-- The name of an edge in inspection texts. -/
def title : Edge → String
  | opens f => f.title ++ "Start"
  | closes f => f.title ++ "End"

end Edge

/-- A part of a language that must be supplied. -/
inductive Part where
  | name
  | wordChar
  | predicate (edge : Edge)
deriving DecidableEq

namespace Part

/-- Every part, in the order in which missing ones are listed. -/
def all : List Part := name :: wordChar :: Edge.all.map predicate

def text : Part → String
  | name => "name"
  | wordChar => "keyword character predicate"
  | predicate edge => edge.text ++ " predicate"

/-- The name of a part in inspection texts. -/
def title : Part → String
  | name => "Name"
  | wordChar => "KeywordChar"
  | predicate edge => edge.title

end Part

/-- What stops a scan. -/
inductive ScanError where
  | incompleteLanguage (language : String) (missing : List Part)
  | zeroIndentWidth
  | malformedScratch (error : ScratchError)
deriving DecidableEq

/-- The text of an error. -/
def ScanError.message : ScanError → String
  | incompleteLanguage language missing =>
    "language `" ++ language ++ "` is not fully configured (missing "
      ++ ", ".intercalate (missing.map Part.text) ++ ")"
  | zeroIndentWidth => "indent width must be at least 1"
  | malformedScratch error => "language scratch state is malformed: " ++ error.message

end LexTree
