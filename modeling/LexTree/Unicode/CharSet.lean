/-!
# Sets of characters

A set of characters is kept as the ascending list of the code points where membership changes: a character belongs
to the set when an odd number of them is at most its code point.  The tables of character properties are sorted arrays,
and every look-up in them is one bisection.
-/

namespace LexTree

/-- The least index of `lo ≤ i < hi` that fails `p`, or `hi` if all pass, for a `p` that stays false once it is. -/
def bisect (p : Nat → Bool) (lo hi : Nat) : Nat :=
  if lo < hi then
    let mid := (lo + hi) / 2
    if p mid then bisect p (mid + 1) hi else bisect p lo mid
  else lo
termination_by hi - lo

/-- A set of characters, given by the code points where membership changes, in ascending order. -/
structure CharSet where
  edges : Array Nat

namespace CharSet

/-- Whether `c` belongs to the set. -/
def contains (s : CharSet) (c : Char) : Bool :=
  bisect (fun i => s.edges.getD i 0 ≤ c.toNat) 0 s.edges.size % 2 = 1

end CharSet

end LexTree
