import LexTree.Command.Lex

/-!
# A directory of plain files

What reading a path gives when the working directory holds plain files only.  Of what lies outside of it nothing is
known but that directories are there, so every directory outside counts as empty.
-/

namespace LexTree

/-- Plain files by name. -/
abbrev Directory := List (String × ByteArray)

namespace Directory

def isDirectory : ReadFailure := .other "Is a directory (os error 21)"

def notADirectory : ReadFailure := .other "Not a directory (os error 20)"

def nameTooLong : ReadFailure := .other "File name too long (os error 36)"

/-- The most bytes that the name of a file takes. -/
def maxNameSize : Nat := 255

/-- The most bytes that a path takes. -/
def maxPathSize : Nat := 4095

/-- Read what lies along the parts of a path, from a directory on.  The first part that leads nowhere decides the
failure, and a directory looks at the length of a name before it looks for the name. -/
def readParts : Directory → List String → Except ReadFailure ByteArray
  | _, [] => .error isDirectory
  | dir, "" :: parts | dir, "." :: parts => readParts dir parts
  | _, ".." :: parts => readParts [] parts
  | dir, name :: parts =>
    if name.utf8ByteSize > maxNameSize then .error nameTooLong
    else
      match dir.lookup name, parts with
      | none, _ => .error .notFound
      | some bytes, [] => .ok bytes
      | some _, _ => .error notADirectory

/-- Read the file at a path.  The length of the whole path is looked at first, an empty path names nothing, and one
that starts with a slash leads out of the directory. -/
def read (dir : Directory) (path : String) : Except ReadFailure ByteArray :=
  if path.utf8ByteSize > maxPathSize then .error nameTooLong
  else
    match path.splitOn "/" with
    | [""] => .error .notFound
    | "" :: parts => readParts [] parts
    | parts => readParts dir parts

end Directory

end LexTree
