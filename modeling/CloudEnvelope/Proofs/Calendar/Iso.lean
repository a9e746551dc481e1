import CloudEnvelope.Calendar.IsoReader
import CloudEnvelope.Proofs.Calendar.Ordinal
import CloudEnvelope.Proofs.Calendar.Rfc3339
import CloudEnvelope.Proofs.Text.Scalar
import Mathlib.Data.List.TakeWhile

/-!
# Times in ISO 8601 are read back

`DateTime.ofIso?_rfc3339`: the form of a time inside an event is read in ISO 8601 as that time, to
the microsecond, with all that is written of its offset.  The one thing the reader does not keep is
an offset of less than a second, which it takes for UTC (`Offset.readBack`).  A `Z` is read for the
offset `+00:00` that it replaces (`IsoReader.substitute_rfc3339`).

A clock reading is a run of fields of two digits, and how each field goes on decides what is read
behind it: another field after a colon (`IsoReader.clock?_colon`), a fraction after a point
(`IsoReader.clock?_point`), or nothing (`IsoReader.clock?_field`).
-/

namespace CloudEnvelope

open Calendar

namespace IsoReader

/-! ### Numbers -/

theorem number?_of_digits {ds : List Char} (h : ∀ c ∈ ds, c.isDigit) :
    number? ds = some (Nat.ofDigitChars 10 ds 0) :=
  if_pos (List.all_eq_true.mpr h)

theorem number?_padded (w n : Nat) : number? (padded w n) = some n := by
  rw [number?_of_digits fun _ hc => isDigit_of_mem_padded hc, ofDigitChars_padded]

/-- The two digits of a number below 100 spell it. -/
theorem number?_of_lt {n : Nat} (h : n < 100) :
    number? [(n / 10).digitChar, (n % 10).digitChar] = some n := by
  rw [← padded_two h, number?_padded]

/-! ### Dates -/

/-- The months begin with a digit, and not with the letter of a week. -/
theorem digitChar_ne_week {n : Nat} (h : n < 10) : n.digitChar ≠ 'W' := by
  intro heq
  have hdigit : n.digitChar.isDigit := by simp [Nat.isDigit_digitChar, h]
  rw [heq] at hdigit
  cases hdigit

/-- A date between hyphens has ten characters, and more behind it begins with the separator. -/
theorem separatorIndex?_iso (d : Date) (rest : List Char) :
    separatorIndex? (d.iso ++ rest) = some 10 := by
  obtain ⟨-, hmonth, -⟩ := TimeReader.parts_lt d
  have hweek : (d.month / 10).digitChar ≠ 'W' := digitChar_ne_week (by omega)
  rw [TimeReader.iso_eq]
  simp [separatorIndex?, hweek]

theorem date?_iso (d : Date) : date? d.iso = some d := by
  obtain ⟨hyear, hmonth, hday⟩ := TimeReader.parts_lt d
  have hweek : (d.month / 10).digitChar ≠ 'W' := digitChar_ne_week (by omega)
  have hfour : number? (d.iso.take 4) = some d.year := by
    rw [TimeReader.iso_eq, ← number?_padded 4 d.year, padded_four hyear]
    rfl
  have hrest : d.iso.drop 4 = ['-', (d.month / 10).digitChar, (d.month % 10).digitChar, '-',
      (d.day / 10).digitChar, (d.day % 10).digitChar] := by
    rw [TimeReader.iso_eq]
    rfl
  simp only [date?, hfour, hrest, Option.bind_eq_bind, Option.bind_some, hweek, false_imp_iff,
    number?_of_lt hmonth, number?_of_lt hday, Date.ofParts?_parts]

/-! ### Clocks -/

variable {left : Nat} {separated : Option Bool} {n : Nat} {cs ds : List Char}

/-- The clock reading of a field before those of another reading. -/
def Clock.before (n : Nat) (c : Clock) : Clock := { c with fields := n :: c.fields }

/-- The microseconds in the digits of a fraction, of which the first six count. -/
def microsecondsOf (ds : List Char) : Nat :=
  Nat.ofDigitChars 10 (ds.take 6) 0 * Nat.pow 10 (6 - (ds.take 6).length)

theorem microsecondsOf_padded (h : n < 1000000) : microsecondsOf (padded 6 n) = n := by
  have hlen : (padded 6 n).length = 6 := length_padded (by decide) h
  rw [microsecondsOf, List.take_of_length_le (Nat.le_of_eq hlen), hlen, ofDigitChars_padded]
  exact Nat.mul_one n

/-- Digits are read as a fraction, and nothing is left behind them. -/
theorem fraction?_of_digits (h : ∀ c ∈ ds, c.isDigit) :
    fraction? ds = some ⟨[], microsecondsOf ds, true⟩ := by
  have hfirst : ∀ c ∈ ds.take 6, c.isDigit := fun c hc => h c (List.mem_of_mem_take hc)
  have hrest : (ds.drop 6).dropWhile Char.isDigit = [] :=
    List.dropWhile_eq_nil_iff.mpr fun c hc => h c (List.mem_of_mem_drop hc)
  rw [fraction?, number?_of_digits hfirst, hrest]
  rfl

/-- A field that nothing follows. -/
theorem clock?_field (h : n < 100) :
    clock? (left + 1) separated (padded 2 n) = some ⟨[n], 0, true⟩ := by
  rw [padded_two h, clock?, number?_of_lt h]
  rfl

/-- A field and a colon before another field. -/
theorem clock?_colon (h : n < 100) (hseparated : separated ≠ some false) (hcs : cs ≠ []) :
    clock? (left + 1) separated (padded 2 n ++ ':' :: cs)
      = (clock? left (some true) cs).map (Clock.before n) := by
  have hcolon : separated.getD true = true := by
    rcases separated with _ | _ | _
    · rfl
    · exact absurd rfl hseparated
    · rfl
  obtain ⟨c, cs, rfl⟩ := List.exists_cons_of_ne_nil hcs
  rw [padded_two h]
  simp only [List.cons_append, List.nil_append, clock?, number?_of_lt h, Option.bind_eq_bind,
    Option.bind_some, beq_self_eq_true, hcolon, and_self, if_true]
  cases clock? left (some true) (c :: cs) <;> rfl

/-- A field and a point before a fraction. -/
theorem clock?_fraction (h : n < 100) (hcs : cs ≠ []) :
    clock? (left + 1) separated (padded 2 n ++ '.' :: cs)
      = (fraction? cs).map (Clock.before n) := by
  obtain ⟨c, cs, rfl⟩ := List.exists_cons_of_ne_nil hcs
  rw [padded_two h]
  have hpoint : '.' ≠ ':' := by decide
  simp only [List.cons_append, List.nil_append, clock?, number?_of_lt h, Option.bind_eq_bind,
    Option.bind_some, hpoint, and_false, true_or, if_true, if_false]
  cases fraction? (c :: cs) <;> rfl

/-- A field and a point before the digits of a fraction. -/
theorem clock?_point (h : n < 100) (hne : ds ≠ []) (hds : ∀ c ∈ ds, c.isDigit) :
    clock? (left + 1) separated (padded 2 n ++ '.' :: ds)
      = some ⟨[n], microsecondsOf ds, true⟩ := by
  rw [clock?_fraction h hne, fraction?_of_digits hds]
  rfl

/-- Seconds, and a fraction unless it is zero. -/
def secondsForm (t : TimeOfDay) : List Char :=
  padded 2 t.second ++ if t.microsecond = 0 then [] else '.' :: padded 6 t.microsecond

theorem secondsForm_ne_nil (t : TimeOfDay) : secondsForm t ≠ [] := by
  have hsecond := t.second_lt
  rw [secondsForm, padded_two (by omega)]
  exact List.cons_ne_nil _ _

theorem clock?_secondsForm (t : TimeOfDay) :
    clock? (left + 1) separated (secondsForm t) = some ⟨[t.second], t.microsecond, true⟩ := by
  have hsecond := t.second_lt
  have hmicro := t.microsecond_lt
  rw [secondsForm]
  split_ifs with hzero
  · rw [hzero, List.append_nil, clock?_field (by omega)]
  · have hne : padded 6 t.microsecond ≠ [] := by
      intro hnil
      have hlen := congrArg List.length hnil
      rw [length_padded (by decide) (by omega)] at hlen
      cases hlen
    rw [clock?_point (by omega) hne fun _ hc => isDigit_of_mem_padded hc,
      microsecondsOf_padded hmicro]

/-- The form of a time of day is read as its parts. -/
theorem clock?_iso (t : TimeOfDay) :
    clock? 3 none t.iso = some ⟨[t.hour, t.minute, t.second], t.microsecond, true⟩ := by
  have hhour := t.hour_lt
  have hminute := t.minute_lt
  have hform : t.iso = padded 2 t.hour ++ ':' :: (padded 2 t.minute ++ ':' :: secondsForm t) := by
    simp only [TimeOfDay.iso, secondsForm, List.append_assoc, List.cons_append]
  rw [hform, clock?_colon (by omega) (by simp) (by simp), clock?_colon (by omega) (by simp)
    (secondsForm_ne_nil t), clock?_secondsForm]
  rfl

/-- What is written of an offset behind its sign. -/
def zoneForm (t : TimeOfDay) : List Char :=
  padded 2 t.hour ++ ':' :: (padded 2 t.minute ++
    if t.second = 0 ∧ t.microsecond = 0 then [] else ':' :: secondsForm t)

/-- It is read as its parts, of which the seconds may be left out. -/
theorem exists_clock?_zoneForm (t : TimeOfDay) :
    ∃ c, clock? 3 none (zoneForm t) = some c ∧ c.clean ∧ c.microseconds = t.microsecond ∧
      c.fields.getD 0 0 = t.hour ∧ c.fields.getD 1 0 = t.minute ∧ c.fields.getD 2 0 = t.second := by
  have hhour := t.hour_lt
  have hminute := t.minute_lt
  rw [zoneForm]
  split_ifs with hzero
  · refine ⟨⟨[t.hour, t.minute], 0, true⟩, ?_, rfl, hzero.2.symm, rfl, rfl, hzero.1.symm⟩
    rw [List.append_nil, clock?_colon (by omega) (by simp) ?_, clock?_field (by omega)]
    · rfl
    · rw [padded_two (by omega)]
      exact List.cons_ne_nil _ _
  · refine ⟨⟨[t.hour, t.minute, t.second], t.microsecond, true⟩, ?_, rfl, rfl, rfl, rfl, rfl⟩
    rw [clock?_colon (by omega) (by simp) (by simp), clock?_colon (by omega) (by simp)
      (secondsForm_ne_nil t), clock?_secondsForm]
    rfl

end IsoReader

/-! ### Offsets -/

namespace Offset

/-- The offset that is read of what is written of an offset: less than a second is UTC. -/
def readBack (o : Offset) : Offset := if o.microseconds.natAbs < 1000000 then .utc else o

/-- The offset is a whole number of seconds. -/
def WholeSeconds (o : Offset) : Prop := o.microseconds % 1000000 = 0

/-- An offset is read as it is unless it is a fraction of a second that is not zero. -/
theorem readBack_eq_self_iff {o : Offset} :
    o.readBack = o ↔ (o.microseconds.natAbs < 1000000 → o = .utc) := by
  rw [readBack]
  split_ifs with hshort
  · exact ⟨fun h _ => h.symm, fun h => (h hshort).symm⟩
  · exact iff_of_true rfl fun h => absurd h hshort

theorem readBack_of_wholeSeconds {o : Offset} (h : o.WholeSeconds) : o.readBack = o := by
  refine readBack_eq_self_iff.mpr fun hshort => ?_
  have hwhole : o.microseconds % 1000000 = 0 := h
  have hzero : o.microseconds = 0 := by omega
  obtain ⟨n, hn⟩ := o
  subst hzero
  rfl

end Offset

namespace IsoReader

theorem iso_eq_zoneForm (o : Offset) :
    o.iso = (if o.microseconds < 0 then '-' else '+') ::
      zoneForm (.ofMicroseconds o.microseconds.natAbs) := by
  simp only [Offset.iso, zoneForm, secondsForm, List.cons_append, List.append_assoc]

theorem offset?_of_clock {o : Offset} {c : Clock} {t : TimeOfDay}
    (ht : t.microseconds = o.microseconds.natAbs) (hmicro : c.microseconds = t.microsecond)
    (hhour : c.fields.getD 0 0 = t.hour) (hminute : c.fields.getD 1 0 = t.minute)
    (hsecond : c.fields.getD 2 0 = t.second) :
    c.offset? (decide (o.microseconds < 0)) = some o.readBack := by
  have hlt := t.microsecond_lt
  rw [TimeOfDay.microseconds] at ht
  rw [Clock.offset?, hhour, hminute, hsecond, hmicro, Offset.readBack]
  generalize (t.hour * 60 + t.minute) * 60 + t.second = seconds at ht ⊢
  have hshort : o.microseconds.natAbs < 1000000 ↔ seconds = 0 := by omega
  simp only [hshort]
  by_cases hzero : seconds = 0
  · rw [if_pos hzero, if_pos hzero]
  · have hsigned : (if decide (o.microseconds < 0) = true
        then -((seconds : Int) * 1000000 + t.microsecond)
        else (seconds : Int) * 1000000 + t.microsecond) = o.microseconds := by
      split_ifs with hneg <;> simp only [decide_eq_true_eq] at hneg <;> omega
    simp only [if_neg hzero, hsigned]
    exact dif_pos o.range

/-! ### Times of day with an offset -/

/-- No sign stands in the form of a time of day, so that the first one starts the offset. -/
theorem isSign_of_mem_iso {t : TimeOfDay} {c : Char} (h : c ∈ t.iso) : isSign c = false := by
  by_contra hsign
  simp only [isSign, Bool.not_eq_false, Bool.or_eq_true, beq_iff_eq] at hsign
  rcases TimeOfDay.mem_iso h with hdigit | hmark
  · rcases hsign with rfl | rfl <;> cases hdigit
  · rcases hsign with rfl | rfl <;> exact absurd hmark (by decide)

/-- A time of day and an offset behind it are read one by one. -/
theorem time?_iso (t : TimeOfDay) (o : Offset) :
    time? (t.iso ++ o.iso) = some (t, some o.readBack) := by
  have htime : ∀ c ∈ t.iso, (!isSign c) = true := fun c hc => by rw [isSign_of_mem_iso hc]; rfl
  obtain ⟨c, hzone, hclean, hmicro, hhour, hminute, hsecond⟩ :=
    exists_clock?_zoneForm (.ofMicroseconds o.microseconds.natAbs)
  have hrange := o.range
  have hoffset := offset?_of_clock (DateTime.microseconds_ofMicroseconds (by omega)) hmicro hhour
    hminute hsecond
  have hparts : Clock.timeOfDay? ⟨[t.hour, t.minute, t.second], t.microsecond, true⟩ = some t :=
    TimeReader.ofParts?_parts t
  rw [iso_eq_zoneForm]
  generalize hsign : (if o.microseconds < 0 then '-' else '+') = sign
  have hstop : (!isSign sign) = false := by
    rw [← hsign]
    split_ifs <;> rfl
  have hnegative : (sign == '-') = decide (o.microseconds < 0) := by
    rw [← hsign]
    split_ifs with hneg <;> simp [hneg]
  rw [time?, List.takeWhile_append_of_pos htime, List.dropWhile_append_of_pos htime,
    List.takeWhile_cons_of_neg (by rw [hstop]; exact Bool.false_ne_true),
    List.dropWhile_cons_of_neg (by rw [hstop]; exact Bool.false_ne_true), List.append_nil,
    clock?_iso]
  simp only [Option.bind_eq_bind, Option.bind_some, hparts, hzone, hclean, if_true, hnegative,
    hoffset]

/-! ### Texts -/

/-- A text without lone surrogates is read as it is. -/
theorem scalars?_ofChars (cs : List Char) : scalars? (Text.ofChars cs) = some cs := by
  have hnone : ([7, 8, 10].find? fun i => (((Text.ofChars cs)[i]?.bind CodePoint.scalar?).isNone
      && decide (i < (Text.ofChars cs).length))) = none := by
    rw [List.find?_eq_none]
    intro i _
    by_cases hi : i < cs.length <;> simp [Text.ofChars, hi, CodePoint.scalar?]
  simp only [scalars?, hnone, Text.scalars?_ofChars]

theorem substitute_append (s t new : Text) (old : Char) :
    (s ++ t).substitute old new = s.substitute old new ++ t.substitute old new :=
  List.flatMap_append

theorem substitute_of_notMem {cs : List Char} {old : Char} (h : old ∉ cs) (new : Text) :
    (Text.ofChars cs).substitute old new = Text.ofChars cs := by
  induction cs with
  | nil => rfl
  | cons c cs ih =>
    rw [List.mem_cons, not_or] at h
    have hc : CodePoint.scalar c ≠ .scalar old := fun heq => h.1 (CodePoint.scalar.inj heq).symm
    show (if CodePoint.scalar c = .scalar old then new else [.scalar c])
      ++ (Text.ofChars cs).substitute old new = _
    rw [if_neg hc, ih h.2]
    rfl

/-- The form of a time inside an event has its `Z` at the end, if at all, and for it stands the
offset of UTC. -/
theorem substitute_rfc3339 (t : DateTime) :
    (Text.ofChars t.rfc3339).substitute 'Z' "+00:00"
      = Text.ofChars (t.date.iso ++ 'T' :: (t.time.iso ++ (t.offset.getD .utc).iso)) := by
  have hdate : 'Z' ∉ t.date.iso := fun h => absurd (Date.mem_iso h) (by decide)
  have htime : 'Z' ∉ t.time.iso := fun h => absurd (TimeOfDay.mem_iso h) (by decide)
  have hoffset : 'Z' ∉ (t.offset.getD .utc).iso := fun h => absurd (Offset.mem_iso h) (by decide)
  have hbefore : 'Z' ∉ t.date.iso ++ 'T' :: t.time.iso := by simp [hdate, htime]
  have hzone : (Text.ofChars (if t.offset.getD .utc = .utc then ['Z']
      else (t.offset.getD .utc).iso)).substitute 'Z' "+00:00"
      = Text.ofChars (t.offset.getD .utc).iso := by
    split_ifs with hutc
    · rw [hutc]
      rfl
    · exact substitute_of_notMem hoffset _
  have hform : ∀ zone, Text.ofChars (t.date.iso ++ 'T' :: (t.time.iso ++ zone))
      = Text.ofChars (t.date.iso ++ 'T' :: t.time.iso) ++ Text.ofChars zone := by
    simp [Text.ofChars]
  rw [TimeReader.rfc3339_eq, hform, hform, substitute_append, substitute_of_notMem hbefore, hzone]

end IsoReader

open IsoReader

/-- A date between hyphens, a separator and a clock reading make a time. -/
theorem DateTime.ofIso?_of_substitute {t : Text} {d : Date} {separator : Char} {rest : List Char}
    (h : t.substitute 'Z' "+00:00" = Text.ofChars (d.iso ++ separator :: rest)) :
    ofIso? t = (time? rest).map fun p => ⟨d, p.1, p.2⟩ := by
  have hlen : d.iso.length = 10 := by rw [TimeReader.iso_eq]; rfl
  have hlong : ¬(Text.ofChars (d.iso ++ separator :: rest)).length < 7 := by
    simp only [Text.ofChars, List.length_map, List.length_append, hlen]
    omega
  rw [ofIso?, h]
  simp only [if_neg hlong, scalars?_ofChars, Option.bind_eq_bind, Option.bind_some,
    separatorIndex?_iso, List.take_left' hlen, List.drop_left' hlen, date?_iso]
  rw [Option.map_eq_bind]
  rfl

/-- What is written of a time with an offset is read as this time. -/
theorem DateTime.ofIso?_rfc3339 (t : DateTime) :
    ofIso? (Text.ofChars t.rfc3339)
      = some { t with offset := some (t.offset.getD .utc).readBack } := by
  rw [ofIso?_of_substitute (substitute_rfc3339 t), time?_iso]
  rfl

end CloudEnvelope
