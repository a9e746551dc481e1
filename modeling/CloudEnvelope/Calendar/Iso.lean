import CloudEnvelope.Calendar.DateTime
import CloudEnvelope.Text.Basic

/-!
# Writing times

`DateTime.iso` writes the fields in the ISO 8601 form with all separators. A fraction of a second
and the seconds of an offset appear only when they are not zero. `DateTime.rfc3339` is the form of a
time inside an event: UTC is written `Z`, and a local time is taken as UTC.
-/

namespace CloudEnvelope

namespace Calendar

/-- The decimal digits of `n`, filled with zeros to `width`. -/
def padded (width n : Nat) : List Char :=
  let digits := Nat.toDigits 10 n
  List.replicate (width - digits.length) '0' ++ digits

end Calendar

open Calendar

/-- Year, month and day between hyphens. -/
def Date.iso (d : Date) : List Char :=
  padded 4 d.year ++ '-' :: padded 2 d.month ++ '-' :: padded 2 d.day

/-- Hour, minute and second between colons, and the microseconds after a point unless zero. -/
def TimeOfDay.iso (t : TimeOfDay) : List Char :=
  padded 2 t.hour ++ ':' :: padded 2 t.minute ++ ':' :: padded 2 t.second ++
    if t.microsecond = 0 then [] else '.' :: padded 6 t.microsecond

/-- A sign, hours and minutes, and below them what is not zero. -/
def Offset.iso (o : Offset) : List Char :=
  let n := o.microseconds.natAbs
  let t := TimeOfDay.ofMicroseconds n
  (if o.microseconds < 0 then '-' else '+') :: padded 2 t.hour ++ ':' :: padded 2 t.minute ++
    if t.second = 0 ∧ t.microsecond = 0 then []
    else ':' :: padded 2 t.second ++
      if t.microsecond = 0 then [] else '.' :: padded 6 t.microsecond

namespace DateTime

/-- Date, separator, time of day and the offset if there is one. -/
def iso (separator : Char) (t : DateTime) : List Char :=
  t.date.iso ++ separator :: t.time.iso ++ (t.offset.map Offset.iso).getD []

/-- The form of a time inside an event. -/
def rfc3339 (t : DateTime) : List Char :=
  let zone := t.offset.getD .utc
  t.date.iso ++ 'T' :: t.time.iso ++ if zone = .utc then ['Z'] else zone.iso

end DateTime

end CloudEnvelope
