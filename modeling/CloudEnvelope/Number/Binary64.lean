/-!
# Binary floating-point numbers of 64 bits

A `Binary64` is a signed magnitude `m · 2 ^ e` with a significand below `2 ^ 53`, an infinity or
not a number. Each magnitude has one representation: the significand is at least `2 ^ 52` unless
the exponent is the least one.

`ofDecimal` rounds a decimal to the nearest number, a tie going to the even significand.
-/

namespace CloudEnvelope

/-- A finite magnitude `significand · 2 ^ exponent` in its only representation. -/
structure Magnitude where
  significand : Nat
  exponent : Int
  significand_lt : significand < Nat.pow 2 53
  exponent_range : -1074 ≤ exponent ∧ exponent ≤ 971
  canonical : Nat.pow 2 52 ≤ significand ∨ exponent = -1074
deriving DecidableEq, Repr

namespace Magnitude

/-- The magnitude zero. -/
def zero : Magnitude where
  significand := 0
  exponent := -1074
  significand_lt := by decide
  exponent_range := by decide
  canonical := .inr rfl

/-- The magnitude of a significand and an exponent that represent one. -/
def ofParts? (significand : Nat) (exponent : Int) : Option Magnitude :=
  if h : significand < Nat.pow 2 53 ∧ (-1074 ≤ exponent ∧ exponent ≤ 971) ∧
      (Nat.pow 2 52 ≤ significand ∨ exponent = -1074) then
    some ⟨significand, exponent, h.1, h.2.1, h.2.2⟩
  else none

/-- `num / den` to the nearest integer, a tie going to the even one. -/
def roundHalfEven (num den : Nat) : Nat :=
  let q := num / den
  let r := num % den
  if den < 2 * r ∨ (2 * r = den ∧ q % 2 = 1) then q + 1 else q

/-- The exponent of the greatest power of two that is no greater than `num / den`. -/
def floorLog2 (num den : Nat) : Int :=
  let k : Int := (Nat.log2 num : Int) - Nat.log2 den
  let atLeast := if 0 ≤ k then den * Nat.pow 2 k.toNat ≤ num else den ≤ num * Nat.pow 2 (-k).toNat
  if atLeast then k else k - 1

/-- The magnitude nearest to `num / den`, or `none` when that lies past the greatest. -/
def ofRatio? (num den : Nat) : Option Magnitude :=
  if num = 0 then some zero
  else
    let e := max (-1074) (floorLog2 num den - 52)
    let m := if 0 ≤ e then roundHalfEven num (den * Nat.pow 2 e.toNat)
      else roundHalfEven (num * Nat.pow 2 (-e).toNat) den
    if m = Nat.pow 2 53 then ofParts? (Nat.pow 2 52) (e + 1) else ofParts? m e

/-- The magnitude as a quotient of natural numbers. -/
def ratio (x : Magnitude) : Nat × Nat :=
  if 0 ≤ x.exponent then (x.significand * Nat.pow 2 x.exponent.toNat, 1)
  else (x.significand, Nat.pow 2 (-x.exponent).toNat)

/-- The integer part. -/
def floor (x : Magnitude) : Nat := x.ratio.1 / x.ratio.2

/-- The magnitude is an integer. -/
def isInteger (x : Magnitude) : Bool := x.ratio.1 % x.ratio.2 == 0

end Magnitude

/-- A binary floating-point number of 64 bits. -/
inductive Binary64 where
  | finite (negative : Bool) (magnitude : Magnitude)
  | infinite (negative : Bool)
  | nan
deriving DecidableEq, Repr

namespace Binary64

/-- The number nearest to `± num / den`; past the greatest magnitude stands an infinity. -/
def ofRatio (negative : Bool) (num den : Nat) : Binary64 :=
  match Magnitude.ofRatio? num den with
  | some x => finite negative x
  | none => infinite negative

/-- The number nearest to `± digits · 10 ^ exponent`. Decimals that lie far outside the range of
magnitudes are decided by their order of magnitude alone. -/
def ofDecimal (negative : Bool) (digits : Nat) (exponent : Int) : Binary64 :=
  if digits = 0 then finite negative .zero
  else
    let order := exponent + (Nat.toDigits 10 digits).length
    if 400 < order then infinite negative
    else if order < -400 then finite negative .zero
    else if 0 ≤ exponent then ofRatio negative (digits * Nat.pow 10 exponent.toNat) 1
    else ofRatio negative digits (Nat.pow 10 (-exponent).toNat)

/-- The number nearest to an integer. -/
def ofInt (n : Int) : Binary64 := ofRatio (n < 0) n.natAbs 1

/-- The sign of the number, and its magnitude as a quotient, when it is finite. -/
def ratio? : Binary64 → Option (Bool × Nat × Nat)
  | finite negative x => some (negative, x.ratio)
  | _ => none

/-- The integer that a number equals. -/
def toInt? : Binary64 → Option Int
  | finite negative x =>
    if x.isInteger then some (if negative then -(x.floor : Int) else x.floor) else none
  | _ => none

/-- Equality of numbers: not a number differs from all, and the two zeros are equal. -/
def equals : Binary64 → Binary64 → Bool
  | nan, _ => false
  | _, nan => false
  | finite n x, finite n' x' => x == x' && (n == n' || x.significand == 0)
  | infinite n, infinite n' => n == n'
  | _, _ => false

end Binary64

end CloudEnvelope
