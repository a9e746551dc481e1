import CloudEnvelope.Number.Shortest
import CloudEnvelope.Text.Basic

/-!
# Writing floating-point numbers

A `NumberLayout` fixes how the shortest digits of a number are written: between which orders of
magnitude positionally, with how many digits in an exponent, and with which words for the values
that have no digits. `Binary64.write` follows a layout.
-/

namespace CloudEnvelope

/-- The choices made in writing a floating-point number. -/
structure NumberLayout where
  /-- The least order of magnitude that is written positionally. -/
  leastPositional : Int := -4
  /-- The first order of magnitude past those that are written positionally. -/
  positionalEnd : Int := 16
  /-- The fewest digits of an exponent. -/
  exponentDigits : Nat := 2
  /-- The word for not a number. -/
  nan : Text
  /-- The word for infinity, after its sign. -/
  infinity : Text

namespace Decimal

/-- The digits with a point after the first `order + 1` of them; a whole number keeps one zero
after the point. -/
def positional (digits : List Char) (order : Int) : List Char :=
  if order < 0 then '0' :: '.' :: List.replicate (-order - 1).toNat '0' ++ digits
  else
    let whole := order.toNat + 1
    if digits.length ≤ whole then
      digits ++ List.replicate (whole - digits.length) '0' ++ ['.', '0']
    else digits.take whole ++ '.' :: digits.drop whole

/-- One digit before the point, and the order of magnitude as a signed exponent. -/
def scientific (exponentDigits : Nat) (digits : List Char) (order : Int) : List Char :=
  let mantissa := match digits with
    | [] => []
    | [d] => [d]
    | d :: rest => d :: '.' :: rest
  let exponent := Nat.toDigits 10 order.natAbs
  mantissa ++ 'e' :: (if order < 0 then '-' else '+')
    :: List.replicate (exponentDigits - exponent.length) '0' ++ exponent

/-- The decimal in the given layout. -/
def write (layout : NumberLayout) (d : Decimal) : Text :=
  let digits := Nat.toDigits 10 d.digits
  let order := d.exponent + digits.length - 1
  Text.ofChars <|
    if layout.leastPositional ≤ order ∧ order < layout.positionalEnd then positional digits order
    else scientific layout.exponentDigits digits order

end Decimal

/-- A number in the given layout: the shortest digits that read back, after its sign. -/
def Binary64.write (layout : NumberLayout) : Binary64 → Text
  | nan => layout.nan
  | infinite negative => (if negative then "-" else "") ++ layout.infinity
  | finite negative x => (if negative then "-" else "") ++ x.shortest.write layout

end CloudEnvelope
