import LexTree.Scan.Run

/-!
# Observed scans

A scan that also lists the predicate calls it made, in order.  Observing a language changes nothing but the list.
-/

namespace LexTree

namespace Call

/-- Whether the predicate held, or failed with an error. -/
def isHit (call : Call) : Bool :=
  match call.answer with
  | .ok b => b
  | .error _ => true

end Call

/-- List a call, if it is one to keep. -/
def Notes.record (n : Notes) (keep : Call → Bool) (call : Call) : Notes :=
  if keep call then { n with calls := n.calls.push call } else n

/-- The predicate with its calls listed. -/
def Predicate.observed (p : Predicate) (keep : Call → Bool) (edge : Edge) : Predicate := fun c n =>
  match p c n with
  | .ok b n => .ok b (n.record keep ⟨edge, c, n.startMarker, n.endMarker, n.suppressed, .ok b⟩)
  | .error e n => .error e (n.record keep ⟨edge, c, n.startMarker, n.endMarker, n.suppressed, .error e⟩)

/-- The language with the calls of its predicates listed. -/
def Language.observed (L : Language) (keep : Call → Bool) : Language :=
  { L with predicate := fun edge => (L.predicate edge).observed keep edge }

/-- Scan a text and list the calls that are to be kept, also of a scan that fails. -/
def scanObserved (keep : Call → Bool) (L : Language) (o : Options) (text : String) :
    Except ScanError Output × Array Call :=
  match (do L.validate; o.validate : Except ScanError Unit) with
  | .error e => (.error e, #[])
  | .ok () =>
    match (State.start text).run (L.observed keep) o with
    | .ok () s => (.ok (s.finish L), s.notes.calls)
    | .error e s => (.error (.malformedScratch e), s.notes.calls)

end LexTree
