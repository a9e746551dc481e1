import CloudEnvelope.Calendar.Date

/-!
# Points in time

A `DateTime` is a date, a time of day to the microsecond and, unless it is left open, an offset from
UTC. A time without an offset is local; where an instant is needed the local zone is UTC
(`DateTime.instant`). `DateTime.equals` compares two times with offsets by their instant.
-/

namespace CloudEnvelope

/-- A time of day to the microsecond. -/
structure TimeOfDay where
  hour : Nat
  minute : Nat
  second : Nat
  microsecond : Nat
  hour_lt : hour < 24
  minute_lt : minute < 60
  second_lt : second < 60
  microsecond_lt : microsecond < 1000000
deriving DecidableEq, Repr

namespace TimeOfDay

/-- The start of a day. -/
def midnight : TimeOfDay := ⟨0, 0, 0, 0, by decide, by decide, by decide, by decide⟩

/-- The time of day of parts that are in range. -/
def ofParts? (hour minute second microsecond : Nat) : Option TimeOfDay :=
  if h : hour < 24 ∧ minute < 60 ∧ second < 60 ∧ microsecond < 1000000 then
    some ⟨hour, minute, second, microsecond, h.1, h.2.1, h.2.2.1, h.2.2.2⟩
  else none

/-- The microseconds since midnight. -/
def microseconds (t : TimeOfDay) : Nat :=
  ((t.hour * 60 + t.minute) * 60 + t.second) * 1000000 + t.microsecond

/-- The time of day after a number of microseconds, full days aside. -/
def ofMicroseconds (n : Nat) : TimeOfDay where
  hour := n / 3600000000 % 24
  minute := n / 60000000 % 60
  second := n / 1000000 % 60
  microsecond := n % 1000000
  hour_lt := Nat.mod_lt _ (by decide)
  minute_lt := Nat.mod_lt _ (by decide)
  second_lt := Nat.mod_lt _ (by decide)
  microsecond_lt := Nat.mod_lt _ (by decide)

end TimeOfDay

/-- An offset from UTC in microseconds, less than a day in either direction. -/
structure Offset where
  microseconds : Int
  range : -86400000000 < microseconds ∧ microseconds < 86400000000
deriving DecidableEq, Repr

namespace Offset

/-- The offset of UTC itself. -/
def utc : Offset := ⟨0, by decide⟩

/-- The offset of a number of microseconds that is in range. -/
def ofMicroseconds? (n : Int) : Option Offset :=
  if h : -86400000000 < n ∧ n < 86400000000 then some ⟨n, h⟩ else none

end Offset

/-- A date and a time of day, with an offset from UTC or local. -/
structure DateTime where
  date : Date
  time : TimeOfDay
  offset : Option Offset
deriving DecidableEq, Repr

namespace DateTime

/-- The start of a day, local. -/
def midnight (d : Date) : DateTime := ⟨d, .midnight, none⟩

/-- The same fields, taken as UTC where no offset is given. -/
def assumeUtc (t : DateTime) : DateTime := { t with offset := some (t.offset.getD .utc) }

/-- The microseconds from the start of year 1 to the fields as they stand. -/
def localMicroseconds (t : DateTime) : Int :=
  ((t.date.ordinal : Int) - 1) * 86400000000 + t.time.microseconds

/-- The microseconds from the start of 1970 in UTC, for a local time as in a zone that is UTC. -/
def instant (t : DateTime) : Int :=
  t.localMicroseconds - (t.offset.getD .utc).microseconds - 719162 * 86400000000

/-- The time in UTC of an instant in the years 1 to 9999. -/
def ofInstant? (microseconds : Int) : Option DateTime := do
  let n := microseconds + 719162 * 86400000000
  if n < 0 then none
  else
    let date ← Date.ofOrdinal? (n.toNat / 86400000000 + 1)
    some ⟨date, .ofMicroseconds (n.toNat % 86400000000), some .utc⟩

/-- Two times are equal when they are the same instant, or have the same fields and are both
local. A local time never equals one with an offset. -/
def equals (s t : DateTime) : Bool :=
  match s.offset, t.offset with
  | none, none => s.date == t.date && s.time == t.time
  | some _, some _ => s.instant == t.instant
  | _, _ => false

end DateTime

end CloudEnvelope
