import CloudEnvelope.Calendar.DateTime
import CloudEnvelope.Number.Binary64

/-!
# Times as numbers

A number stands for a time in UTC: seconds since the start of 1970, or milliseconds when it is
greater than 2 · 10 ^ 10 in either direction. `TimeReading` tells a time from the two ways of not
being one: the year zero, which the calendar arithmetic knows and `Date` does not, and all else.
-/

namespace CloudEnvelope

/-- What a number or a text is as a time. -/
inductive TimeReading where
  | moment (t : DateTime)
  | yearZero
  | unreadable
deriving DecidableEq, Repr

namespace UnixTime

/-- The greatest number that is read as seconds. -/
def millisecondsPast : Nat := 20000000000

/-- The microseconds in the unit of the number `± num / den`: those of a millisecond when it is far
from zero, else those of a second. -/
def unit (num den : Nat) : Nat := if millisecondsPast * den < num then 1000 else 1000000

/-- The time after a number of microseconds since 1970. -/
def ofMicroseconds (n : Int) : TimeReading :=
  let seconds := Int.fdiv n 1000000
  if seconds < -62167219200 ∨ 253402300799 < seconds then .unreadable
  else if seconds < -62135596800 then .yearZero
  else
    match DateTime.ofInstant? n with
    | some t => .moment t
    | none => .unreadable

/-- The time of an integer. -/
def ofInteger (n : Int) : TimeReading := ofMicroseconds (n * unit n.natAbs 1)

/-- `num / den` to the nearest integer, a half going up. -/
def roundHalfUp (num den : Nat) : Nat := (2 * num + den) / (2 * den)

/-- The microseconds in a fraction of a unit. The fraction and its product with the unit are rounded
to floating-point numbers, and the product to the nearest integer. -/
def fraction (num den unit : Nat) : Nat :=
  let product? := do
    let (_, num, den) ← (Binary64.ofRatio false num den).ratio?
    (Binary64.ofRatio false (num * unit) den).ratio?
  match product? with
  | some (_, num, den) => roundHalfUp num den
  | none => 0

/-- The time of a floating-point number: the units of its integer part, rounded down, and the
microseconds in what is left of it. -/
def ofFloat (x : Binary64) : TimeReading :=
  match x.ratio? with
  | none => .unreadable
  | some (negative, num, den) =>
    let value : Int := if negative then -num else num
    let whole := Int.fdiv value den
    let unit := unit num den
    ofMicroseconds (whole * unit + fraction (value - whole * den).toNat den unit)

end UnixTime

end CloudEnvelope
