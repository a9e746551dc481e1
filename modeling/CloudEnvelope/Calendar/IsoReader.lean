import CloudEnvelope.Calendar.DateTime
import CloudEnvelope.Text.Basic

/-!
# Reading ISO 8601 times

`DateTime.ofIso?` reads a date by month and day or by week, with or without separators, any one code
point, a time of day and an offset. It is liberal where the format allows no confusion:

* a fraction may follow the hour, the minute or the second, and counts as a fraction of a second;
  from the seventh digit on it is cut;
* between the time of day and an offset, one ASCII character after the last field is ignored, and so
  is everything after the digits of a fraction;
* minutes and seconds of an offset may exceed 59, and an offset of no full second is UTC.

Every `Z` stands for the offset `+00:00`, wherever it is written.
-/

namespace CloudEnvelope

namespace IsoReader

/-- The number that ASCII digits spell. -/
def number? (cs : List Char) : Option Nat :=
  if cs.all Char.isDigit then some (Nat.ofDigitChars 10 cs 0) else none

/-- The index of the code point between date and time. A date of four digits, `W` and more digits is
a week without a day when an even number of digits follows the week, or none. -/
def separatorIndex? (cs : List Char) : Option Nat :=
  let at' (i : Nat) : Char := cs.getD i '\x00'
  if cs.length = 7 then some 7
  else if at' 4 = '-' then
    if at' 5 = 'W' then
      if at' 8 = '-' ∧ 8 < cs.length then
        if cs.length = 9 then none
        else if (at' 10).isDigit then some 8
        else some 10
      else some 8
    else some 10
  else if at' 4 = 'W' then
    let digitsEnd := 7 + ((cs.drop 7).takeWhile Char.isDigit).length
    if digitsEnd < 9 then some digitsEnd else if digitsEnd % 2 = 0 then some 7 else some 8
  else some 8

/-- A date in one of the six forms. -/
def date? (cs : List Char) : Option Date := do
  let year ← number? (cs.take 4)
  match cs.drop 4 with
  | ['-', 'W', a, b] => Date.ofWeek? year (← number? [a, b]) 1
  | ['-', 'W', a, b, '-', c] => Date.ofWeek? year (← number? [a, b]) (← number? [c])
  | ['W', a, b] => Date.ofWeek? year (← number? [a, b]) 1
  | ['W', a, b, c] => Date.ofWeek? year (← number? [a, b]) (← number? [c])
  | ['-', a, b, '-', c, d] => Date.ofParts? year (← number? [a, b]) (← number? [c, d])
  | [a, b, c, d] => Date.ofParts? year (← number? [a, b]) (← number? [c, d])
  | _ => none

/-- What a clock reading holds: up to three fields, a fraction in microseconds, and whether nothing
but a NUL stands after it. -/
structure Clock where
  fields : List Nat
  microseconds : Nat
  clean : Bool

/-- Nothing is left, or what is left starts with a NUL. -/
def atEnd (cs : List Char) : Bool := cs.head?.all (· == '\x00')

/-- A fraction of a second: six digits or fewer, and further digits that are cut. -/
def fraction? (cs : List Char) : Option Clock := do
  let digits := cs.take 6
  let n ← number? digits
  some ⟨[], n * Nat.pow 10 (6 - digits.length), atEnd ((cs.drop 6).dropWhile Char.isDigit)⟩

/-- Up to `left` fields of two digits and a fraction. Whether colons separate the fields is settled
by what follows the first of them. -/
def clock? : Nat → Option Bool → List Char → Option Clock
  | 0, _, cs => fraction? cs
  | left + 1, separated, a :: b :: rest => do
    let field ← number? [a, b]
    let clock ← match rest with
      | [] => some ⟨[], 0, true⟩
      | [c] => if c.toNat < 0x80 then some ⟨[], 0, c == '\x00'⟩ else none
      | c :: more =>
        let separated := separated.getD (c == ':')
        if separated ∧ c = ':' then clock? left separated more
        else if c = '.' ∨ c = ',' then fraction? more
        else if separated then none
        else clock? left separated rest
    some { clock with fields := field :: clock.fields }
  | _, _, _ => none

/-- The time of day of a clock reading. -/
def Clock.timeOfDay? (c : Clock) : Option TimeOfDay :=
  TimeOfDay.ofParts? (c.fields.getD 0 0) (c.fields.getD 1 0) (c.fields.getD 2 0) c.microseconds

/-- The offset of a clock reading after a sign. -/
def Clock.offset? (c : Clock) (negative : Bool) : Option Offset :=
  let seconds := (c.fields.getD 0 0 * 60 + c.fields.getD 1 0) * 60 + c.fields.getD 2 0
  let n : Int := seconds * 1000000 + c.microseconds
  if seconds = 0 then some .utc else Offset.ofMicroseconds? (if negative then -n else n)

/-- A sign that starts an offset. -/
def isSign (c : Char) : Bool := c == '+' || c == '-'

/-- A time of day, and an offset after the first sign. -/
def time? (cs : List Char) : Option (TimeOfDay × Option Offset) := do
  let clock ← clock? 3 none (cs.takeWhile (!isSign ·))
  let time ← clock.timeOfDay?
  match cs.dropWhile (!isSign ·) with
  | [] => if clock.clean then some (time, none) else none
  | sign :: zone => do
    let clock ← clock? 3 none zone
    if clock.clean then
      let offset ← clock.offset? (sign == '-')
      some (time, some offset)
    else none

/-- The scalar values of a text in which one lone surrogate may stand as the separator. -/
def scalars? (t : Text) : Option (List Char) :=
  let isLone (i : Nat) : Bool := (t[i]?.bind CodePoint.scalar?).isNone && i < t.length
  match [7, 8, 10].find? isLone with
  | some i => Text.scalars? (t.set i (.scalar 'T'))
  | none => Text.scalars? t

end IsoReader

open IsoReader

/-- The time that a text spells in ISO 8601, local when it gives no offset. -/
def DateTime.ofIso? (t : Text) : Option DateTime := do
  let t := t.substitute 'Z' "+00:00"
  if t.length < 7 then none
  let cs ← IsoReader.scalars? t
  let i ← separatorIndex? cs
  let date ← date? (cs.take i)
  match cs.drop i with
  | [] => some (.midnight date)
  | _ :: clock => do
    let (time, offset) ← time? clock
    some ⟨date, time, offset⟩

end CloudEnvelope
