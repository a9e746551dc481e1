import CloudEnvelope.Number.Binary64

/-!
# Shortest decimals

The shortest decimal of a magnitude is the one with the fewest digits among those that read back as
the magnitude, and of these the nearest. On the grid of decimals with `n` significant digits only
the two neighbours of the magnitude can be the answer, so the first grid with a neighbour inside
the interval of reals that round to the magnitude decides.
-/

namespace CloudEnvelope

/-- The decimal `digits · 10 ^ exponent`. -/
structure Decimal where
  digits : Nat
  exponent : Int
deriving DecidableEq, Repr

namespace Decimal

/-- The number of decimal digits of a natural number. -/
def digitCount (n : Nat) : Nat := (Nat.toDigits 10 n).length

/-- The exponent of the greatest power of ten that is no greater than `num / den`. -/
def floorLog10 (num den : Nat) : Int :=
  if den ≤ num then (digitCount (num / den) : Int) - 1
  else -(digitCount ((den + num - 1) / num - 1) : Int)

/-- Drops the zeros at the end of the digits, at most `fuel` of them. -/
def dropZeros : Nat → Decimal → Decimal
  | 0, d => d
  | fuel + 1, d =>
    if d.digits % 10 = 0 && d.digits != 0 then dropZeros fuel ⟨d.digits / 10, d.exponent + 1⟩ else d

end Decimal

namespace Magnitude

/-- The reals that round to a magnitude, and the magnitude itself, all as numerators over the
denominator `den`. The ends belong to the interval when the significand is even. -/
structure Interval where
  low : Nat
  value : Nat
  high : Nat
  den : Nat
  closed : Bool

/-- The interval of a magnitude other than zero. Below a power of two the neighbour is nearer. -/
def interval (x : Magnitude) : Interval :=
  let m := 4 * x.significand
  let below := if x.significand = Nat.pow 2 52 ∧ x.exponent ≠ -1074 then 1 else 2
  let e := x.exponent - 2
  let scale := if 0 ≤ e then Nat.pow 2 e.toNat else 1
  { low := (m - below) * scale
    value := m * scale
    high := (m + 2) * scale
    den := if 0 ≤ e then 1 else Nat.pow 2 (-e).toNat
    closed := x.significand % 2 == 0 }

/-- The decimal lies in the interval. -/
def Interval.contains (i : Interval) (d : Decimal) : Bool :=
  let num := d.digits * (if 0 ≤ d.exponent then Nat.pow 10 d.exponent.toNat else 1) * i.den
  let scale := if 0 ≤ d.exponent then 1 else Nat.pow 10 (-d.exponent).toNat
  if i.closed then i.low * scale ≤ num && num ≤ i.high * scale
  else i.low * scale < num && num < i.high * scale

/-- The neighbour of the value on the grid of multiples of `10 ^ exponent` that lies in the
interval; of two the nearer, and of two equally near the even one. -/
def Interval.neighbour? (i : Interval) (exponent : Int) : Option Decimal :=
  let num := i.value * (if 0 ≤ exponent then 1 else Nat.pow 10 (-exponent).toNat)
  let den := i.den * (if 0 ≤ exponent then Nat.pow 10 exponent.toNat else 1)
  let below : Decimal := ⟨num / den, exponent⟩
  let above : Decimal := ⟨num / den + 1, exponent⟩
  let r := num % den
  match i.contains below, i.contains above with
  | true, true =>
    some (if 2 * r < den ∨ (2 * r = den ∧ below.digits % 2 = 0) then below else above)
  | true, false => some below
  | false, true => some above
  | false, false => none

/-- The first neighbour found on the grids that `exponents` lists. -/
def Interval.search (i : Interval) (exponents : List Int) : Option Decimal :=
  exponents.findSome? i.neighbour?

/-- The shortest decimal that reads back as the magnitude. Seventeen digits always suffice. -/
def shortest (x : Magnitude) : Decimal :=
  if x.significand = 0 then ⟨0, 0⟩
  else
    let i := x.interval
    let order := Decimal.floorLog10 i.value i.den
    let exponents := (List.range 17).map fun (n : Nat) => order - (n : Int)
    Decimal.dropZeros 17 ((i.search exponents).getD ⟨0, 0⟩)

end Magnitude

end CloudEnvelope
