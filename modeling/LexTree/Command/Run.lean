import LexTree.Command.Arguments
import LexTree.Command.Directory

/-!
# Running a command

What a command line comes to: its exit code and the texts it writes.  Diagnostics are warnings and do not change the
exit code.
-/

namespace LexTree

/-- The end of a run. -/
inductive Outcome where
  /-- The command line was not understood. -/
  | refused
  | done (exit : UInt32) (stdout stderr : String)
deriving DecidableEq

/-- The names of the bundled languages, one a line. -/
def listLanguages : String :=
  Bundled.names.foldl (fun out name => out ++ name ++ "\n") ""

namespace Outcome

/-- The end of a scan that was asked for. -/
def ofReport : Except LexError Report → Outcome
  | .ok report =>
    let warnings := report.diagnostics.foldl (fun out d => out ++ "warning: " ++ d.display ++ "\n") ""
    done 0 report.output warnings
  | .error e => done 1 "" ("error: " ++ e.message ++ "\n")

def exitCode : Outcome → UInt32
  | refused => 2
  | done exit _ _ => exit

end Outcome

/-- Run a command line in a directory of plain files. -/
def runCommand (dir : Directory) (args : List String) : Outcome :=
  match Arguments.request? args with
  | none => .refused
  | some .langs => .done 0 listLanguages ""
  | some (.lex file language format o) => .ofReport (lexFile file (dir.read file) language format o)

end LexTree
