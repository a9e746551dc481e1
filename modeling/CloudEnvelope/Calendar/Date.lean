/-!
# Dates

Dates of the proleptic Gregorian calendar in the years 1 to 9999. `Date.ordinal` numbers the days,
1 for the first day of year 1, and `Date.ofOrdinal?` is its inverse; `Date.ofWeek?` finds a day by
its ISO week.
-/

namespace CloudEnvelope

namespace Calendar

/-- A leap year. -/
def isLeap (year : Nat) : Bool := year % 4 == 0 && (year % 100 != 0 || year % 400 == 0)

/-- The number of days in a month, from 1 to 12; other months have none. -/
def daysInMonth (year : Nat) : Nat → Nat
  | 1 => 31
  | 2 => if isLeap year then 29 else 28
  | 3 => 31
  | 4 => 30
  | 5 => 31
  | 6 => 30
  | 7 => 31
  | 8 => 31
  | 9 => 30
  | 10 => 31
  | 11 => 30
  | 12 => 31
  | _ => 0

/-- The number of days in the years 1 to `year - 1`. -/
def daysBeforeYear (year : Nat) : Nat :=
  let y := year - 1
  y * 365 + y / 4 - y / 100 + y / 400

/-- The number of days of `year` before a month. -/
def daysBeforeMonth (year : Nat) : Nat → Nat
  | 0 => 0
  | month + 1 => daysBeforeMonth year month + daysInMonth year month

end Calendar

open Calendar

/-- A day of the years 1 to 9999. -/
structure Date where
  year : Nat
  month : Nat
  day : Nat
  year_range : 1 ≤ year ∧ year ≤ 9999
  day_range : 1 ≤ day ∧ day ≤ daysInMonth year month
deriving DecidableEq, Repr

namespace Date

/-- The date of a year, a month and a day that exist. -/
def ofParts? (year month day : Nat) : Option Date :=
  if h : (1 ≤ year ∧ year ≤ 9999) ∧ (1 ≤ day ∧ day ≤ daysInMonth year month) then
    some ⟨year, month, day, h.1, h.2⟩
  else none

theorem ofParts?_parts (d : Date) : ofParts? d.year d.month d.day = some d := by
  simp [ofParts?, d.year_range, d.day_range]

/-- The number of the day, 1 for the first day of year 1. -/
def ordinal (d : Date) : Nat := daysBeforeYear d.year + daysBeforeMonth d.year d.month + d.day

/-- The month and the day, both from 1, of the day of a year, from 0. -/
def monthAndDay (year : Nat) (month : Nat) : Nat → Nat → Nat × Nat
  | 0, n => (month, n + 1)
  | left + 1, n =>
    let days := daysInMonth year month
    if n < days then (month, n + 1) else monthAndDay year (month + 1) left (n - days)

/-- The date of an ordinal of the years 1 to 9999. -/
def ofOrdinal? (ordinal : Nat) : Option Date :=
  let n := ordinal - 1
  let quadricentennials := n / 146097
  let n := n % 146097
  let centuries := n / 36524
  let n := n % 36524
  let quadrennials := n / 1461
  let n := n % 1461
  let years := n / 365
  let year := 400 * quadricentennials + 100 * centuries + 4 * quadrennials + years + 1
  if ordinal = 0 then none
  else if centuries = 4 ∨ years = 4 then ofParts? (year - 1) 12 31
  else
    let (month, day) := monthAndDay year 1 11 (n % 365)
    ofParts? year month day

/-- The day of the week of an ordinal, 0 for Monday. -/
def weekday (ordinal : Nat) : Nat := (ordinal + 6) % 7

/-- The ordinal of the Monday that starts the first ISO week of a year. It may lie in the year
before, so it is an integer. -/
def firstMonday (year : Nat) : Int :=
  let first := daysBeforeYear year + 1
  let monday : Int := (first : Int) - weekday first
  if 3 < weekday first then monday + 7 else monday

/-- The number of ISO weeks in a year: 53 when it starts on a Thursday, or on a Wednesday in a leap
year. -/
def weeksInYear (year : Nat) : Nat :=
  let start := weekday (daysBeforeYear year + 1)
  if start = 3 ∨ (start = 2 ∧ isLeap year) then 53 else 52

/-- The date of a day, from 1 for Monday to 7, of an ISO week. -/
def ofWeek? (year week day : Nat) : Option Date :=
  if (1 ≤ year ∧ year ≤ 9999) ∧ (1 ≤ week ∧ week ≤ weeksInYear year) ∧ (1 ≤ day ∧ day ≤ 7) then
    ofOrdinal? (firstMonday year + (week - 1) * 7 + (day - 1)).toNat
  else none

end Date

end CloudEnvelope
