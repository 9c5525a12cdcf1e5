import LexTree.Command.Run

/-!
# The program

Reads the file that the command line names, writes what the command comes to, and exits with its code.
-/

namespace LexTree

/-- Why the system refused to read a file. -/
def ReadFailure.ofIOError : IO.Error → ReadFailure
  | .noFileOrDirectory .. => .notFound
  | .permissionDenied .. => .permissionDenied
  | .inappropriateType _ 21 _ => Directory.isDirectory
  | .inappropriateType .. => Directory.notADirectory
  | .invalidArgument _ 36 _ => Directory.nameTooLong
  | e => .other (toString e)

/-- Read the contents of a file. -/
def readContents (path : String) : IO (Except ReadFailure ByteArray) := do
  try
    return .ok (← IO.FS.readBinFile path)
  catch e =>
    return .error (.ofIOError e)

/-- Write what a run comes to. -/
def Outcome.print : Outcome → IO Unit
  | refused => IO.eprintln "usage: lextree langs | lextree lex FILE --lang LANGUAGE [OPTIONS]"
  | done _ stdout stderr => do
    IO.eprint stderr
    IO.print stdout

end LexTree

open LexTree in
def main (args : List String) : IO UInt32 := do
  let outcome ←
    match Arguments.request? args with
    | some (.lex file language format o) =>
      pure (Outcome.ofReport (lexFile file (← readContents file) language format o))
    | _ => pure (runCommand [] args)
  outcome.print
  return outcome.exitCode
