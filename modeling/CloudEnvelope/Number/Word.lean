/-!
# Words

Integers that a signed word of a given width can hold.
-/

namespace CloudEnvelope.Word

/-- A signed word of so many bits holds the integer. -/
def holds (bits : Nat) (n : Int) : Bool :=
  let bound : Int := Nat.pow 2 (bits - 1)
  decide (-bound ≤ n) && decide (n < bound)

end CloudEnvelope.Word
