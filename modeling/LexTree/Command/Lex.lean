import LexTree.Language.Bundled
import LexTree.Scan.Run
import LexTree.Scope.Dump
import LexTree.Scope.Json

/-!
# Scanning a file and writing the result

The contents of a file are read as UTF-8, scanned with a bundled language, and the tree is written in one of three
formats.  The file is read before the language is looked up.
-/

namespace LexTree

/-- How a tree is written. -/
inductive Format where
  /-- The tree dump. -/
  | tree
  /-- The tree as pretty JSON. -/
  | json
  /-- The flat dump. -/
  | flat
deriving DecidableEq

namespace Format

/-- The format of a name. -/
def ofName? : String → Option Format
  | "tree" => some tree
  | "json" => some json
  | "flat" => some flat
  | _ => none

/-- The text of a tree in the format. -/
def write (root : Scope) : Format → String
  | tree => root.dump
  | json => root.toJson.pretty ++ "\n"
  | flat => root.dumpFlat

end Format

/-- Why the contents of a file could not be had. -/
inductive ReadFailure where
  | notFound
  | permissionDenied
  | invalidUtf8
  | other (reason : String)
deriving DecidableEq

/-- What stops the command. -/
inductive LexError where
  | read (path : String) (failure : ReadFailure)
  | language (error : UnknownLanguage)
  | scan (error : ScanError)
deriving DecidableEq

/-- The text of an error. -/
def LexError.message : LexError → String
  | read path .notFound => s!"cannot find file '{path}'"
  | read path .permissionDenied => s!"permission denied reading '{path}'"
  | read path .invalidUtf8 => s!"'{path}' contains invalid UTF-8 data"
  | read path (.other reason) => s!"error reading '{path}': {reason}"
  | language error => error.message
  | scan error => error.message

/-- What the command writes, and the problems met on the way. -/
structure Report where
  output : String
  diagnostics : Array Diagnostic

/-- Scan a text with the language of a name. -/
def lexText (text language : String) (format : Format) (o : Options) : Except LexError Report := do
  let L ← (Bundled.find language).mapError .language
  let out ← (scan L o text).mapError .scan
  return ⟨format.write out.root, out.diagnostics⟩

/-- Scan the contents of a file. -/
def lexFile (path : String) (contents : Except ReadFailure ByteArray) (language : String) (format : Format)
    (o : Options) : Except LexError Report := do
  let bytes ← contents.mapError (.read path)
  match String.fromUTF8? bytes with
  | some text => lexText text language format o
  | none => throw (.read path .invalidUtf8)

end LexTree
