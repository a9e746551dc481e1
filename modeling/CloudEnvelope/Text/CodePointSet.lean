/-!
# Sets of code points

A property of code points that a character standard tabulates is stored by its boundaries: the
increasing list of the places where membership changes, starting outside the set. A code point
belongs to the set when an odd number of boundaries is no greater than it.
-/

namespace CloudEnvelope

/-- A set of code points, given by the places where membership changes. -/
structure CodePointSet where
  boundaries : List Nat

namespace CodePointSet

/-- Walks the boundaries up to `n` and flips the answer at each. -/
def member (n : Nat) : List Nat → Bool
  | [] => false
  | b :: rest => if n < b then false else !member n rest

/-- The code point with number `n` belongs to the set. -/
def contains (s : CodePointSet) (n : Nat) : Bool := member n s.boundaries

end CodePointSet

end CloudEnvelope
