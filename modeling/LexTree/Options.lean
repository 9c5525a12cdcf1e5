import LexTree.Error

/-!
# Scan options

Which leaves a scan keeps, and how the blanks at the start of a line are measured in indent levels.
-/

namespace LexTree

/-- What does not depend on the language: output filters and the measure of indentation. -/
structure Options where
  includeStrings : Bool := true
  includeComments : Bool := true
  includeWhitespace : Bool := false
  includeNewlines : Bool := false
  /-- Spaces to an indent level. -/
  indentWidth : UInt32 := 4
  /-- Whether a tab counts as one indent level. -/
  allowTabs : Bool := true
deriving DecidableEq

namespace Options

/-- Set the four filters by what is to be dropped. -/
def ignoring (o : Options) (strings comments whitespace newlines : Bool) : Options :=
  { o with
    includeStrings := !strings
    includeComments := !comments
    includeWhitespace := !whitespace
    includeNewlines := !newlines }

/-- Options with an indent width of zero are refused. -/
def validate (o : Options) : Except ScanError Unit :=
  if o.indentWidth = 0 then .error .zeroIndentWidth else .ok ()

/-- The levels of a run of blanks, beyond `levels` complete ones and `spaces` spaces of the next one. -/
def measureFrom (o : Options) (levels spaces : UInt32) : List Char → UInt32
  | [] => levels
  | ' ' :: rest =>
    if spaces + 1 = max o.indentWidth 1 then o.measureFrom (levels + 1) 0 rest
    else o.measureFrom levels (spaces + 1) rest
  | '\t' :: rest => o.measureFrom (if o.allowTabs then levels + 1 else levels) 0 rest
  | _ :: rest => o.measureFrom levels spaces rest

/-- The indent level of a run of blanks: one for each full group of spaces and, where tabs are allowed, one for
each tab.  A tab discards a group of spaces that is not full, and other characters count for nothing. -/
def measureIndent (o : Options) (run : List Char) : UInt32 :=
  o.measureFrom 0 0 run

end Options

end LexTree
