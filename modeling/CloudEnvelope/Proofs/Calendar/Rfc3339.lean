import CloudEnvelope.Proofs.Calendar.Ordinal
import CloudEnvelope.Proofs.Text.Digits

/-!
# Times inside an event are read back

`TimeReading.ofChars_rfc3339`: the form of a time inside an event is read as that time, a local time
as UTC, when the offset is a whole number of minutes.  The reader knows no seconds of an offset.

The form is a date of ten characters, a `T`, a time of day and a zone, and each part has its own
lemma (`date?_iso`, `time?_iso`, `zone?_zone`).

With seconds in the offset the zone cannot be read, and the form is no number and no date either
(`TimeReading.ofChars_rfc3339_unreadable`).
-/

namespace CloudEnvelope

open Calendar

/-- The offset is a whole number of minutes. -/
def Offset.WholeMinutes (o : Offset) : Prop := o.microseconds % 60000000 = 0

/-- An offset that is given is not replaced by that of UTC. -/
theorem Offset.wholeMinutes_getD {o : Option Offset} (h : ∃ o', o = some o' ∧ o'.WholeMinutes) :
    (o.getD .utc).WholeMinutes := by
  obtain ⟨o', rfl, hwhole⟩ := h
  exact hwhole

namespace TimeReader

/-! ### Dates -/

/-- The parts of a date have four, two and two digits. -/
theorem parts_lt (d : Date) : d.year < 10000 ∧ d.month < 100 ∧ d.day < 100 := by
  have hmonth := d.month_le
  have hday := Nat.le_trans d.day_range.2 (Date.daysInMonth_le _ _)
  have hyear := d.year_range.2
  omega

theorem iso_eq (d : Date) :
    d.iso = [(d.year / 1000).digitChar, (d.year / 100 % 10).digitChar,
      (d.year / 10 % 10).digitChar, (d.year % 10).digitChar, '-', (d.month / 10).digitChar,
      (d.month % 10).digitChar, '-', (d.day / 10).digitChar, (d.day % 10).digitChar] := by
  obtain ⟨hyear, hmonth, hday⟩ := parts_lt d
  rw [Date.iso, padded_four hyear, padded_two hmonth, padded_two hday]
  rfl

theorem date?_iso (d : Date) : date? d.iso = some (d.year, d.month, d.day) := by
  obtain ⟨hyear, hmonth, hday⟩ := parts_lt d
  have hparts : 100 * (10 * (d.year / 1000) + d.year / 100 % 10)
      + (10 * (d.year / 10 % 10) + d.year % 10) = d.year := by omega
  rw [iso_eq, date?]
  simp only [pair?_digitChar (show d.year / 1000 < 10 by omega) (Nat.mod_lt _ (by decide)),
    pair?_digitChar (Nat.mod_lt _ (by decide)) (Nat.mod_lt _ (by decide)), pair?_of_lt hmonth,
    pair?_of_lt hday, Option.bind_eq_bind, Option.bind_some, hparts]
  rw [if_pos d.day_range]

/-! ### Times of day -/

theorem ofParts?_parts (t : TimeOfDay) :
    TimeOfDay.ofParts? t.hour t.minute t.second t.microsecond = some t :=
  dif_pos ⟨t.hour_lt, t.minute_lt, t.second_lt, t.microsecond_lt⟩

/-- Nothing stands at the start that would lengthen a time of day. -/
def EndsTime (rest : List Char) : Prop :=
  NoDigit rest ∧ ∀ c ∈ rest.head?, c ≠ '.' ∧ c ≠ ','

theorem time?_iso (t : TimeOfDay) {rest : List Char} (h : EndsTime rest) :
    time? (t.iso ++ rest) = some (t, rest) := by
  have hhour := t.hour_lt
  have hminute := t.minute_lt
  have hsecond := t.second_lt
  have hmicro := t.microsecond_lt
  rw [TimeOfDay.iso, padded_two (by omega), padded_two (by omega), padded_two (by omega)]
  simp only [List.cons_append, List.nil_append, time?, pair?_of_lt (show t.hour < 100 by omega),
    pair?_of_lt (show t.minute < 100 by omega), pair?_of_lt (show t.second < 100 by omega),
    Option.bind_eq_bind, Option.bind_some]
  -- A fraction is written unless it is zero, and then with all of its six digits.
  by_cases hzero : t.microsecond = 0
  · have hparts := ofParts?_parts t
    rw [hzero] at hparts
    rw [if_pos hzero, List.nil_append]
    cases rest with
    | nil => simp only [hparts, Option.bind_some]
    | cons c rest =>
      obtain ⟨hdot, hcomma⟩ := h.2 c rfl
      simp only [hdot, hcomma, or_self, if_false, hparts, Option.bind_some]
  · have hlen : (padded 6 t.microsecond).length = 6 := length_padded (by decide) (by omega)
    have hne : padded 6 t.microsecond ≠ [] := by
      intro hnil
      rw [hnil] at hlen
      exact absurd hlen (by decide)
    have hdigits : ∀ c ∈ padded 6 t.microsecond, c.isDigit := fun _ hc => isDigit_of_mem_padded hc
    rw [if_neg hzero]
    simp only [List.cons_append, true_or, if_true, takeWhile_isDigit_append hdigits h.1,
      dropWhile_isDigit_append hdigits h.1, if_neg hne, List.take_of_length_le (Nat.le_of_eq hlen),
      hlen, ofDigitChars_padded, Nat.sub_self]
    rw [show t.microsecond * Nat.pow 10 0 = t.microsecond from Nat.mul_one _, ofParts?_parts]
    rfl

/-! ### Zones -/

/-- Hours and minutes are all that is written of a whole number of minutes. -/
theorem iso_of_wholeMinutes {o : Offset} (h : o.WholeMinutes) :
    o.iso = (if o.microseconds < 0 then '-' else '+') ::
      (padded 2 (o.microseconds.natAbs / 60000000 / 60) ++ ':' ::
        padded 2 (o.microseconds.natAbs / 60000000 % 60)) := by
  have hrange := o.range
  have hwhole : o.microseconds % 60000000 = 0 := h
  have hhour : o.microseconds.natAbs / 3600000000 % 24 = o.microseconds.natAbs / 60000000 / 60 := by
    omega
  have hsecond : o.microseconds.natAbs / 1000000 % 60 = 0 := by omega
  have hmicro : o.microseconds.natAbs % 1000000 = 0 := by omega
  simp only [Offset.iso, TimeOfDay.ofMicroseconds, hhour, hsecond, hmicro, and_self, if_true,
    List.append_nil, List.cons_append]

theorem offset?_minutes {o : Offset} (h : o.WholeMinutes) :
    offset? (decide (o.microseconds < 0)) (padded 2 (o.microseconds.natAbs / 60000000 / 60) ++
      ':' :: padded 2 (o.microseconds.natAbs / 60000000 % 60)) = some o := by
  have hrange := o.range
  have hwhole : o.microseconds % 60000000 = 0 := h
  -- The sign stands apart, and `m` is the number of minutes behind it.
  generalize hm : o.microseconds.natAbs / 60000000 = m
  have hminutes : ((m / 60 * 60 + m % 60 : Nat) : Int) * 60000000 = o.microseconds.natAbs := by
    omega
  have hsigned : (if decide (o.microseconds < 0) = true then -(o.microseconds.natAbs : Int)
      else o.microseconds.natAbs) = o.microseconds := by
    split_ifs with hneg <;> simp only [decide_eq_true_eq] at hneg <;> omega
  rw [padded_two (show m / 60 < 100 by omega), padded_two (show m % 60 < 100 by omega)]
  simp only [offset?, List.cons_append, List.nil_append, pair?_of_lt (show m / 60 < 100 by omega),
    pair?_of_lt (show m % 60 < 100 by omega), Option.bind_eq_bind, Option.bind_some, hminutes,
    hsigned]
  rw [if_pos (Nat.mod_lt m (by decide))]
  exact dif_pos o.range

theorem zone?_zone {o : Offset} (h : o.WholeMinutes) :
    zone? (if o = .utc then ['Z'] else o.iso) = some (some o) := by
  split_ifs with hutc
  · rw [hutc]
    rfl
  · have hread := offset?_minutes h
    rw [iso_of_wholeMinutes h]
    by_cases hneg : o.microseconds < 0
    · rw [decide_eq_true hneg] at hread
      rw [if_pos hneg, zone?, hread]
      rfl
    · rw [decide_eq_false hneg] at hread
      rw [if_neg hneg, zone?, hread]
      rfl

theorem endsTime_zone (o : Offset) : EndsTime (if o = .utc then ['Z'] else o.iso) := by
  have hends (c : Char) (rest : List Char) (hdigit : c.isDigit = false)
      (hmark : c ≠ '.' ∧ c ≠ ',') : EndsTime (c :: rest) := by
    constructor
    · rintro d ⟨⟩
      exact hdigit
    · rintro d ⟨⟩
      exact hmark
  split_ifs with hutc
  · exact hends _ _ (by decide) (by decide)
  · simp only [Offset.iso, List.cons_append]
    by_cases hneg : o.microseconds < 0
    · rw [if_pos hneg]
      exact hends _ _ (by decide) (by decide)
    · rw [if_neg hneg]
      exact hends _ _ (by decide) (by decide)

/-- Seconds behind hours and minutes make no offset. -/
theorem offset?_seconds (negative : Bool) {hour minute second : Nat} (hhour : hour < 100)
    (hminute : minute < 100) (hsecond : second < 100) (rest : List Char) :
    offset? negative (padded 2 hour ++ ':' :: (padded 2 minute ++ ':' ::
      (padded 2 second ++ rest))) = none := by
  rw [padded_two hhour, padded_two hminute, padded_two hsecond]
  rfl

/-- An offset that is no whole number of minutes is written with its seconds. -/
theorem iso_of_not_wholeMinutes {o : Offset} (h : ¬o.WholeMinutes) :
    ∃ hour minute second, hour < 100 ∧ minute < 100 ∧ second < 100 ∧ ∃ rest,
      o.iso = (if o.microseconds < 0 then '-' else '+') :: (padded 2 hour ++ ':' ::
        (padded 2 minute ++ ':' :: (padded 2 second ++ rest))) := by
  have hrange := o.range
  have hbelow : ¬((TimeOfDay.ofMicroseconds o.microseconds.natAbs).second = 0 ∧
      (TimeOfDay.ofMicroseconds o.microseconds.natAbs).microsecond = 0) := by
    rintro ⟨hsecond, hmicro⟩
    apply h
    show o.microseconds % 60000000 = 0
    simp only [TimeOfDay.ofMicroseconds] at hsecond hmicro
    omega
  rw [Offset.iso]
  generalize TimeOfDay.ofMicroseconds o.microseconds.natAbs = t at hbelow ⊢
  have hhour := t.hour_lt
  have hminute := t.minute_lt
  have hsecond := t.second_lt
  refine ⟨t.hour, t.minute, t.second, by omega, by omega, by omega,
    if t.microsecond = 0 then [] else '.' :: padded 6 t.microsecond, ?_⟩
  simp only [if_neg hbelow, List.cons_append, List.append_assoc]

/-- Then it is not read. -/
theorem zone?_iso_eq_none {o : Offset} (h : ¬o.WholeMinutes) : zone? o.iso = none := by
  obtain ⟨hour, minute, second, hhour, hminute, hsecond, rest, hiso⟩ := iso_of_not_wholeMinutes h
  have hlong := fun negative => offset?_seconds negative hhour hminute hsecond rest
  rw [hiso]
  by_cases hneg : o.microseconds < 0
  · rw [if_pos hneg, zone?, hlong]
    rfl
  · rw [if_neg hneg, zone?, hlong]
    rfl

/-! ### Whole times -/

/-- The form of a time inside an event is a date, a time of day and a zone. -/
theorem rfc3339_eq (t : DateTime) : t.rfc3339 = t.date.iso ++ 'T' :: (t.time.iso ++
    if t.offset.getD .utc = .utc then ['Z'] else (t.offset.getD .utc).iso) := by
  simp only [DateTime.rfc3339, List.cons_append, List.append_assoc]

/-- The form of a time is read as a time when its zone is. -/
theorem dateTime?_rfc3339 (t : DateTime) :
    dateTime? t.rfc3339 = (zone? (if t.offset.getD .utc = .utc then ['Z']
      else (t.offset.getD .utc).iso)).map fun offset => .moment ⟨t.date, t.time, offset⟩ := by
  have hlen : t.date.iso.length = 10 := by rw [iso_eq]; rfl
  rw [rfc3339_eq, dateTime?, List.take_left' hlen, List.drop_left' hlen, date?_iso]
  simp only [Option.bind_eq_bind, Option.bind_some, true_or, if_true,
    time?_iso t.time (endsTime_zone _), reading, Date.ofParts?_parts]
  rw [Option.map_eq_bind]
  rfl

/-- A digit at the start is no sign. -/
theorem signed_of_isDigit {d : Char} (hd : d.isDigit) (rest : List Char) :
    signed (d :: rest) = (false, d :: rest) := by
  rw [signed]
  · rintro more heq
    rw [(List.cons.inj heq).1] at hd
    cases hd
  · rintro more heq
    rw [(List.cons.inj heq).1] at hd
    cases hd

/-- What has a hyphen behind its first digits is no number. -/
theorem number?_of_hyphen {ds : List Char} (hne : ds ≠ []) (h : ∀ c ∈ ds, c.isDigit)
    (rest : List Char) : number? (ds ++ '-' :: rest) = none := by
  have hsigned : signed (ds ++ '-' :: rest) = (false, ds ++ '-' :: rest) := by
    obtain ⟨d, ds, rfl⟩ := List.exists_cons_of_ne_nil hne
    exact signed_of_isDigit (h d List.mem_cons_self) _
  have hinteger : integer? (ds ++ '-' :: rest) = none := by
    have hall : ¬(ds ++ '-' :: rest).all Char.isDigit := by
      simp
    simp only [integer?, hsigned]
    exact if_neg fun hdigits => hall hdigits.2
  have hpoint : hasPoint (ds ++ '-' :: rest) = false := by
    have hhyphen : NoDigit ('-' :: rest) := by
      rintro c ⟨⟩
      rfl
    rw [hasPoint, hsigned, dropWhile_isDigit_append h hhyphen]
    rfl
  rw [number?, hinteger]
  simp only [hpoint, Bool.false_eq_true, if_false]

/-- The form of a time is no number, because of the hyphen behind the year. -/
theorem number?_rfc3339 (t : DateTime) : number? t.rfc3339 = none := by
  have hyear : padded 4 t.date.year ≠ [] := by
    rw [padded_four (parts_lt t.date).1]
    exact List.cons_ne_nil _ _
  rw [DateTime.rfc3339, Date.iso, List.append_assoc, List.append_assoc, List.append_assoc,
    List.cons_append]
  exact number?_of_hyphen hyear (fun _ hc => isDigit_of_mem_padded hc) _

/-- The form of a time is no date: it goes on behind the day. -/
theorem date?_rfc3339 (t : DateTime) : date? t.rfc3339 = none := by
  rw [rfc3339_eq, iso_eq]
  rfl

end TimeReader

/-! ### Characters -/

theorem Date.mem_iso {d : Date} {c : Char} (h : c ∈ d.iso) : c.isDigit ∨ c = '-' := by
  simp only [Date.iso, List.mem_append, List.mem_cons] at h
  rcases h with (h | h | h) | h | h
  exacts [.inl (isDigit_of_mem_padded h), .inr h, .inl (isDigit_of_mem_padded h), .inr h,
    .inl (isDigit_of_mem_padded h)]

/-- The marks inside a time of day. -/
def Calendar.clockMarks : List Char := [':', '.']

theorem TimeOfDay.mem_iso {t : TimeOfDay} {c : Char} (h : c ∈ t.iso) :
    c.isDigit ∨ c ∈ clockMarks := by
  by_contra hnot
  -- A character that is neither stands in no part of the form.
  have hpadded : ∀ w n, c ∉ padded w n := fun w n hc => hnot (.inl (isDigit_of_mem_padded hc))
  have hmarks : ∀ d ∈ clockMarks, c ≠ d := fun d hd hc => hnot (.inr (hc ▸ hd))
  simp only [clockMarks, List.forall_mem_cons] at hmarks
  obtain ⟨hcolon, hpoint, -⟩ := hmarks
  unfold TimeOfDay.iso at h
  split_ifs at h <;> simp [hpadded, hcolon, hpoint] at h

theorem Offset.mem_iso {o : Offset} {c : Char} (h : c ∈ o.iso) :
    c.isDigit ∨ c ∈ clockMarks ∨ c ∈ ['-', '+'] := by
  by_contra hnot
  have hpadded : ∀ w n, c ∉ padded w n := fun w n hc => hnot (.inl (isDigit_of_mem_padded hc))
  have hmarks : ∀ d ∈ clockMarks, c ≠ d := fun d hd hc => hnot (.inr (.inl (hc ▸ hd)))
  have hsigns : ∀ d ∈ ['-', '+'], c ≠ d := fun d hd hc => hnot (.inr (.inr (hc ▸ hd)))
  simp only [clockMarks, List.forall_mem_cons] at hmarks hsigns
  obtain ⟨hcolon, hpoint, -⟩ := hmarks
  obtain ⟨hminus, hplus, -⟩ := hsigns
  unfold Offset.iso at h
  split_ifs at h <;> simp [hpadded, hcolon, hpoint, hminus, hplus] at h

/-- The marks between the digits of a time. -/
def Calendar.timeMarks : List Char := ['-', '+', ':', '.', 'T', 'Z']

/-- The form of a time inside an event consists of digits and marks. -/
theorem DateTime.mem_rfc3339 {t : DateTime} {c : Char} (h : c ∈ t.rfc3339) :
    c.isDigit ∨ c ∈ timeMarks := by
  have hclock : clockMarks ⊆ timeMarks := by decide
  have hsigns : ['-', '+'] ⊆ timeMarks := by decide
  rw [TimeReader.rfc3339_eq, List.mem_append, List.mem_cons, List.mem_append] at h
  rcases h with h | rfl | h | h
  · refine (Date.mem_iso h).imp_right ?_
    rintro rfl
    decide
  · exact .inr (by decide)
  · exact (TimeOfDay.mem_iso h).imp_right fun hc => hclock hc
  · split_ifs at h
    · obtain rfl := List.mem_singleton.mp h
      exact .inr (by decide)
    · exact (Offset.mem_iso h).imp_right (Or.rec (hclock ·) (hsigns ·))

open TimeReader

/-- The form of a time inside an event is read as that time, a local time as UTC. -/
theorem TimeReading.ofChars_rfc3339 (t : DateTime) (h : (t.offset.getD .utc).WholeMinutes) :
    ofChars t.rfc3339 = .moment t.assumeUtc := by
  rw [ofChars, dateTime?_rfc3339, zone?_zone h]
  rfl

/-- The form of a time with seconds in its offset is not read at all. -/
theorem TimeReading.ofChars_rfc3339_unreadable (t : DateTime)
    (h : ¬(t.offset.getD .utc).WholeMinutes) : ofChars t.rfc3339 = .unreadable := by
  have hutc : t.offset.getD .utc ≠ .utc := by
    intro heq
    rw [heq] at h
    exact h rfl
  have hread : dateTime? t.rfc3339 = none := by
    rw [dateTime?_rfc3339, if_neg hutc, zone?_iso_eq_none h]
    rfl
  simp only [ofChars, hread, number?_rfc3339, date?_rfc3339]

end CloudEnvelope
