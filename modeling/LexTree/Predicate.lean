import LexTree.Cursor
import LexTree.Error

/-!
# Predicates

A language tells the scanner where its constructs open and close by predicates on the cursor.  A predicate may read the
text around the cursor and write notes: the delimiters of the boundary it reports, its scratch state, and the wish to
look at the same place again.  It cannot move the cursor or touch the tree.
-/

namespace LexTree

/-- One call of a predicate: what it was asked, and what it left behind. -/
structure Call where
  edge : Edge
  cursor : Cursor
  startMarker : String
  endMarker : String
  suppressed : Bool
  answer : Except ScratchError Bool

/-- What predicates write. -/
structure Notes where
  /-- Opening delimiter of the boundary reported. -/
  startMarker : String := ""
  /-- Closing delimiter of the boundary reported. -/
  endMarker : String := ""
  scratch : Scratch := {}
  /-- Whether the cursor is to stay where it is at the end of the step. -/
  suppressed : Bool := false
  /-- The calls made so far, kept only under observation. -/
  calls : Array Call := #[]

namespace Notes

def clearMarkers (n : Notes) : Notes := { n with startMarker := "", endMarker := "" }

/-- The notes at the start of a step: no markers, no suppression. -/
def fresh (n : Notes) : Notes := { n.clearMarkers with suppressed := false }

/-- Set both delimiters. -/
def mark (n : Notes) (startMarker endMarker : String) : Notes := { n with startMarker, endMarker }

def suppress (n : Notes) : Notes := { n with suppressed := true }

end Notes

/-- A computation that reads and writes notes and may find the scratch state malformed; the notes survive an error. -/
abbrev Probe := EStateM ScratchError Notes

/-- A test of the place under the cursor. -/
abbrev Predicate := Cursor → Probe Bool

namespace Predicate

/-- Holds nowhere. -/
def never : Predicate := fun _ n => .ok false n

/-- Holds everywhere. -/
def always : Predicate := fun _ n => .ok true n

end Predicate

end LexTree
