import LexTree.Scan.Step

/-!
# Whole scans

A scan checks the language and the options, then steps through the text and closes what is left open.  It fails only
on an unusable language or options, or when a predicate finds its scratch state malformed.
-/

namespace LexTree

namespace State

/-- Step on until the cursor leaves the text. -/
def run (s : State) (L : Language) (o : Options) : EStateM.Result ScratchError State Unit :=
  if _hs : s.cursor.index < s.cursor.text.size then
    match _h : s.step L o with
    | .ok () s' => s'.run L o
    | .error e s' => .error e s'
  else .ok () s
termination_by s.rank
decreasing_by exact rank_step _hs _h

end State

/-- The tree of a scan and the problems met on the way. -/
structure Output where
  root : Scope
  diagnostics : Array Diagnostic
deriving DecidableEq

namespace Output

/-- Whether no problem was met. -/
def isClean (out : Output) : Bool := out.diagnostics.isEmpty

end Output

/-- What a scan that has left the text amounts to. -/
def State.finish (s : State) (L : Language) : Output :=
  let s := s.flush L
  ⟨.ofEvents s.events, s.diagnostics⟩

/-- Scan a text into a tree. -/
def scan (L : Language) (o : Options) (text : String) : Except ScanError Output := do
  L.validate
  o.validate
  match (State.start text).run L o with
  | .ok () s => return s.finish L
  | .error e _ => throw (.malformedScratch e)

end LexTree
