import LexTree.Unicode.CharSet

/-!
# Case mappings

Most characters change case together with their neighbours, so a mapping is kept as runs of code points that move by
one common distance.  The few characters that become several are listed apart.
-/

namespace LexTree

/-- The code points `first`, `first + stride`, …, `last`, sent to `target`, `target + stride`, …. -/
structure CaseRun where
  first : Nat
  last : Nat
  stride : Nat
  target : Nat

/-- A mapping of characters to texts; `runs` are in ascending order and do not overlap. -/
structure CaseMap where
  runs : Array CaseRun
  several : Array (Nat × List Nat)

namespace CaseRun

/-- The image of `n`, if the run holds it. -/
def image? (r : CaseRun) (n : Nat) : Option Nat :=
  if r.first ≤ n ∧ n ≤ r.last ∧ (n - r.first) % r.stride = 0 then some (r.target + (n - r.first)) else none

end CaseRun

namespace CaseMap

/-- The image of `c`; a character without one stays as it is. -/
def apply (m : CaseMap) (c : Char) : List Char :=
  let n := c.toNat
  match m.several.find? (·.1 = n) with
  | some (_, image) => image.map Char.ofNat
  | none =>
    let found := bisect (fun i => (m.runs[i]?.map (·.first)).getD 0 ≤ n) 0 m.runs.size
    match m.runs[found - 1]?.bind (·.image? n) with
    | some image => [Char.ofNat image]
    | none => [c]

end CaseMap

end LexTree
