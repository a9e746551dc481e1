import CloudEnvelope.Attribute.Value
import CloudEnvelope.Proofs.Calendar.Grammar

/-!
# Timestamps from texts

A header may hold a time or the text of one.  `AttributeKind.toTimestamp_printed`: the form of a
time inside an event is converted to what the time itself is converted to, so that a time may be
printed on the way without being changed.  It is the reader that limits this to offsets of at least
a second (`AttributeKind.toTimestamp_printed_iff`).

`AttributeKind.toTimestamp_of_spells`: a text of RFC 3339 is converted to the time that it denotes,
however many digits its fraction has, but one that ends with a small `z` is refused.
-/

namespace CloudEnvelope.AttributeKind

variable (name : Text) (t : DateTime)

/-- The form of a time is converted to a time with the same fields, and with the offset that is read
of what is written of its offset. -/
theorem toTimestamp_rfc3339 :
    toTimestamp name (.text (Text.ofChars t.rfc3339))
      = .ok { t with offset := some (t.offset.getD .utc).readBack } := by
  simp only [toTimestamp, DateTime.ofIso?_rfc3339]
  rfl

/-- A time is converted to itself, a local time to the same fields in UTC. -/
theorem toTimestamp_dateTime :
    toTimestamp name (.dateTime t) = .ok ⟨t.date, t.time, some (t.offset.getD .utc)⟩ := rfl

/-- A time and its form are converted alike exactly when the offset is not a fraction of a
second. -/
theorem toTimestamp_printed_iff :
    toTimestamp name (.text (Text.ofChars t.rfc3339)) = toTimestamp name (.dateTime t) ↔
      ∀ o ∈ t.offset, o.microseconds.natAbs < 1000000 → o = .utc := by
  have hfields : toTimestamp name (.text (Text.ofChars t.rfc3339)) = toTimestamp name (.dateTime t)
      ↔ (t.offset.getD .utc).readBack = t.offset.getD .utc := by
    rw [toTimestamp_rfc3339, toTimestamp_dateTime]
    simp
  rw [hfields, Offset.readBack_eq_self_iff]
  cases t.offset with
  | none => simp
  | some o => simp

/-- The form of a time is converted to what the time itself is converted to: the same fields to the
microsecond and the same offset, which is UTC for a local time. -/
theorem toTimestamp_printed (h : ∀ o ∈ t.offset, o.WholeSeconds) :
    toTimestamp name (.text (Text.ofChars t.rfc3339)) = toTimestamp name (.dateTime t) ∧
      toTimestamp name (.dateTime t) = .ok ⟨t.date, t.time, some (t.offset.getD .utc)⟩ := by
  have hwhole : (t.offset.getD .utc).WholeSeconds := by
    cases hoffset : t.offset with
    | none => rfl
    | some o => exact h o hoffset
  rw [toTimestamp_rfc3339, Offset.readBack_of_wholeSeconds hwhole]
  exact ⟨rfl, toTimestamp_dateTime name t⟩

/-- A time of the first century, west of UTC by hours, minutes and seconds. -/
def westernEvening : DateTime where
  date := ⟨33, 2, 28, by decide, by decide⟩
  time := ⟨23, 59, 7, 6, by decide, by decide, by decide, by decide⟩
  offset := some ⟨-19815000000, by decide⟩

theorem toTimestamp_printed_westernEvening :
    westernEvening.rfc3339 = "0033-02-28T23:59:07.000006-05:30:15".toList ∧
      (∀ o ∈ westernEvening.offset, o.WholeSeconds) ∧
      toTimestamp "time" (.text "0033-02-28T23:59:07.000006-05:30:15") = .ok westernEvening := by
  have hform : westernEvening.rfc3339 = "0033-02-28T23:59:07.000006-05:30:15".toList := by
    decide +kernel
  have hwhole : ∀ o ∈ westernEvening.offset, o.WholeSeconds := by
    rintro o ⟨⟩
    rfl
  obtain ⟨hread, htime⟩ := toTimestamp_printed "time" westernEvening hwhole
  rw [hform] at hread
  exact ⟨hform, hwhole, hread.trans htime⟩

/-! ### Texts of RFC 3339 -/

open Rfc3339

/-- A text of RFC 3339 is converted to the time that it denotes, with the fraction cut to
microseconds, unless its zone is a small `z`, and then it is refused. -/
theorem toTimestamp_of_spells {cs : List Char} {t : DateTime} (h : Spells cs t) :
    toTimestamp name (.text (Text.ofChars cs)) =
      if cs.getLast? = some 'z' then
        .error (timestamp.wrongForm name (Text.ofChars cs) "RFC 3339" (some .malformedTime))
      else .ok t := by
  have hoffset : t.assumeUtc = t := by
    obtain ⟨-, -, -, -⟩ := h
    rfl
  simp only [toTimestamp, DateTime.ofIso?_of_spells h]
  split_ifs
  · rfl
  · exact congrArg Except.ok hoffset

/-- A time eight hours behind UTC. -/
def westernAfternoon : DateTime where
  date := ⟨1996, 12, 19, by decide, by decide⟩
  time := ⟨16, 39, 57, 123456, by decide, by decide, by decide, by decide⟩
  offset := some ⟨-28800000000, by decide⟩

theorem toTimestamp_of_spells_westernAfternoon :
    Spells "1996-12-19t16:39:57.1234567-08:00".toList westernAfternoon ∧
      toTimestamp "time" (.text "1996-12-19t16:39:57.1234567-08:00") = .ok westernAfternoon := by
  have hfraction : Fraction ('.' :: ['1', '2', '3', '4', '5', '6', '7']) 123456 :=
    .digits (by decide) (by simp)
  have htime : PartialTime "16:39:57.1234567".toList westernAfternoon.time :=
    @PartialTime.parts ['1', '6'] ['3', '9'] ['5', '7'] _ _ ⟨rfl, by simp, rfl⟩
      ⟨rfl, by simp, rfl⟩ ⟨rfl, by simp, rfl⟩ hfraction
  have hdate : FullDate "1996-12-19".toList westernAfternoon.date :=
    @FullDate.parts ['1', '9', '9', '6'] ['1', '2'] ['1', '9'] _ ⟨rfl, by simp, rfl⟩
      ⟨rfl, by simp, rfl⟩ ⟨rfl, by simp, rfl⟩
  have hzone : Zone "-08:00".toList ⟨-28800000000, by decide⟩ :=
    @Zone.numeric '-' ['0', '8'] ['0', '0'] 8 0 _ (.inr rfl) ⟨rfl, by simp, rfl⟩
      ⟨rfl, by simp, rfl⟩ (by decide) (by decide) rfl
  have hspells : Spells "1996-12-19t16:39:57.1234567-08:00".toList westernAfternoon :=
    .parts hdate (.inr rfl) htime hzone
  exact ⟨hspells, toTimestamp_of_spells "time" hspells⟩

/-- A morning in UTC. -/
def utcMorning : DateTime where
  date := ⟨2025, 5, 1, by decide, by decide⟩
  time :=
    ⟨10, 0, 0, 0, by decide, TimeOfDay.midnight.minute_lt, TimeOfDay.midnight.second_lt,
      TimeOfDay.midnight.microsecond_lt⟩
  offset := some .utc

/-- A time of RFC 3339 that is refused because its zone is a small letter. -/
theorem smallZone_refused :
    Spells "2025-05-01T10:00:00z".toList utcMorning ∧
      toTimestamp "time" (.text "2025-05-01T10:00:00z") = .error (timestamp.wrongForm "time"
        "2025-05-01T10:00:00z" "RFC 3339" (some .malformedTime)) := by
  have htime : PartialTime "10:00:00".toList utcMorning.time :=
    @PartialTime.parts ['1', '0'] ['0', '0'] ['0', '0'] _ _ ⟨rfl, by simp, rfl⟩
      ⟨rfl, by simp, rfl⟩ ⟨rfl, by simp, rfl⟩ .none
  have hdate : FullDate "2025-05-01".toList utcMorning.date :=
    @FullDate.parts ['2', '0', '2', '5'] ['0', '5'] ['0', '1'] _ ⟨rfl, by simp, rfl⟩
      ⟨rfl, by simp, rfl⟩ ⟨rfl, by simp, rfl⟩
  exact ⟨.parts hdate (.inl rfl) htime (.utc (.inr rfl)), rfl⟩

end CloudEnvelope.AttributeKind
