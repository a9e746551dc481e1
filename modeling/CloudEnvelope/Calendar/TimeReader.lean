import CloudEnvelope.Calendar.UnixTime

/-!
# Reading the time of an event

`TimeReading.ofChars` reads, in this order, a date and a time of day in the form of RFC 3339, a
number (see `UnixTime`) and a plain date, which stands for its local midnight. The form is taken
liberally: the separator may be `T`, `t`, a space or a low line, the seconds may be left out, a
comma may start the fraction, which is cut after six digits, `z` may stand for `Z`, the colon of
an offset may be left out, and the minus sign U+2212 may stand for a hyphen.
-/

namespace CloudEnvelope

namespace TimeReader

/-- The number that two digits spell. -/
def pair? (a b : Char) : Option Nat :=
  if a.isDigit ∧ b.isDigit then some (10 * (a.toNat - 48) + (b.toNat - 48)) else none

/-- A year, a month and a day that exist when the year zero counts as a leap year. -/
def date? : List Char → Option (Nat × Nat × Nat)
  | [a, b, c, d, '-', e, f, '-', g, h] => do
    let century ← pair? a b
    let year := 100 * century + (← pair? c d)
    let month ← pair? e f
    let day ← pair? g h
    if 1 ≤ day ∧ day ≤ Calendar.daysInMonth year month then some (year, month, day) else none
  | _ => none

/-- Hour and minute, seconds and a fraction if they follow, and the rest. -/
def time? : List Char → Option (TimeOfDay × List Char)
  | a :: b :: ':' :: c :: d :: rest => do
    let hour ← pair? a b
    let minute ← pair? c d
    match rest with
    | ':' :: rest =>
      match rest with
      | e :: f :: rest =>
        let second ← pair? e f
        match rest with
        | mark :: digits =>
          if mark = '.' ∨ mark = ',' then
            let fraction := digits.takeWhile Char.isDigit
            if fraction = [] then none
            else
              let six := fraction.take 6
              let time ← TimeOfDay.ofParts? hour minute second
                (Nat.ofDigitChars 10 six 0 * Nat.pow 10 (6 - six.length))
              some (time, digits.dropWhile Char.isDigit)
          else
            let time ← TimeOfDay.ofParts? hour minute second 0
            some (time, rest)
        | [] =>
          let time ← TimeOfDay.ofParts? hour minute second 0
          some (time, [])
      | _ => none
    | _ =>
      let time ← TimeOfDay.ofParts? hour minute 0 0
      some (time, rest)
  | _ => none

/-- Hours and minutes of an offset, with or without a colon, and nothing after them. -/
def offset? (negative : Bool) (cs : List Char) : Option Offset := do
  let (hour, minute) ← match cs with
    | [a, b, ':', c, d] => some (← pair? a b, ← pair? c d)
    | [a, b, c, d] => some (← pair? a b, ← pair? c d)
    | _ => none
  if minute < 60 then
    let n : Int := (hour * 60 + minute : Nat) * 60000000
    Offset.ofMicroseconds? (if negative then -n else n)
  else none

/-- The end of a time: nothing, the letter for UTC or an offset. -/
def zone? : List Char → Option (Option Offset)
  | [] => some none
  | ['Z'] => some (some .utc)
  | ['z'] => some (some .utc)
  | '+' :: rest => (offset? false rest).map some
  | '-' :: rest => (offset? true rest).map some
  | '\u2212' :: rest => (offset? true rest).map some
  | _ => none

/-- The reading of calendar parts. -/
def reading (date : Nat × Nat × Nat) (time : TimeOfDay) (offset : Option Offset) : TimeReading :=
  let (year, month, day) := date
  match Date.ofParts? year month day with
  | some d => .moment ⟨d, time, offset⟩
  | none => if year = 0 then .yearZero else .unreadable

/-- A date, a separator and a time of day with or without an offset. -/
def dateTime? (cs : List Char) : Option TimeReading := do
  let date ← date? (cs.take 10)
  match cs.drop 10 with
  | separator :: rest =>
    if separator = 'T' ∨ separator = 't' ∨ separator = ' ' ∨ separator = '_' then
      let (time, rest) ← time? rest
      let offset ← zone? rest
      some (reading date time offset)
    else none
  | [] => none

/-- An optional sign before the rest. -/
def signed : List Char → Bool × List Char
  | '-' :: rest => (true, rest)
  | '+' :: rest => (false, rest)
  | rest => (false, rest)

/-- A whole number. -/
def integer? (cs : List Char) : Option Int :=
  let (negative, digits) := signed cs
  if digits ≠ [] ∧ digits.all Char.isDigit then
    some (if negative then -(Nat.ofDigitChars 10 digits 0) else Nat.ofDigitChars 10 digits 0)
  else none

/-- The exponent of a decimal numeral: nothing, or a letter and a whole number. -/
def exponent? : List Char → Option Int
  | [] => some 0
  | mark :: rest => if mark = 'e' ∨ mark = 'E' then integer? rest else none

/-- A decimal numeral, with digits before or after its point. -/
def numeral? (cs : List Char) : Option Binary64 := do
  let (negative, cs) := signed cs
  let whole := cs.takeWhile Char.isDigit
  let rest := cs.dropWhile Char.isDigit
  let (fraction, rest) := match rest with
    | '.' :: more => (more.takeWhile Char.isDigit, more.dropWhile Char.isDigit)
    | _ => ([], rest)
  let exponent ← exponent? rest
  if whole = [] ∧ fraction = [] then none
  else
    some (.ofDecimal negative (Nat.ofDigitChars 10 (whole ++ fraction) 0)
      (exponent - fraction.length))

/-- Nothing but digits stands between the sign and a point. -/
def hasPoint (cs : List Char) : Bool :=
  ((signed cs).2.dropWhile Char.isDigit).head? == some '.'

/-- The number that a text spells, as a time. An exponent alone makes no number of an integer. -/
def number? (cs : List Char) : Option TimeReading :=
  match integer? cs with
  | some n => some (UnixTime.ofInteger n)
  | none => if hasPoint cs then (numeral? cs).map UnixTime.ofFloat else none

end TimeReader

open TimeReader

/-- The time that a text spells inside an event. -/
def TimeReading.ofChars (cs : List Char) : TimeReading :=
  match dateTime? cs with
  | some r => r
  | none =>
    match number? cs with
    | some r => r
    | none =>
      match date? cs with
      | some date => reading date .midnight none
      | none => .unreadable

end CloudEnvelope
