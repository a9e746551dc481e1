import CloudEnvelope.Calendar.DateTime
import Mathlib.Tactic.Common

/-!
# Days by number

`exists_ofOrdinal?`: every number of the days of the years 1 to 9999 is the ordinal of the date that
`Date.ofOrdinal?` finds for it.  The number is cut into spans of 400, 100, 4 years and 1 year, whose
last day needs a case of its own when the span has a day more than its parts
(`daysBeforeYear_spans`), and the rest of a year into months (`monthAndDay_spec`).

`DateTime.exists_ofInstant?` carries this over to instants: the time in UTC of an instant inside the
calendar is a time at that instant.
-/

namespace CloudEnvelope

open Calendar

namespace Date

/-! ### Months -/

theorem le_twelve_of_daysInMonth_pos {year month : Nat} (h : 1 ≤ daysInMonth year month) :
    month ≤ 12 := by
  by_contra hlt
  match month, hlt with
  | n + 13, _ => simp [daysInMonth] at h

theorem daysInMonth_le (year month : Nat) : daysInMonth year month ≤ 31 := by
  unfold daysInMonth
  split <;> (try split_ifs) <;> decide

theorem month_le (d : Date) : d.month ≤ 12 :=
  le_twelve_of_daysInMonth_pos (Nat.le_trans d.day_range.1 d.day_range.2)

theorem daysBeforeMonth_le (year month : Nat) : daysBeforeMonth year month ≤ 31 * month := by
  induction month with
  | zero => exact Nat.le_refl 0
  | succ month ih =>
    have hmonth := daysInMonth_le year month
    rw [daysBeforeMonth]
    omega

theorem daysBeforeMonth_twelve (year : Nat) :
    daysBeforeMonth year 12 = if isLeap year then 335 else 334 := by
  simp only [daysBeforeMonth, daysInMonth]
  split_ifs <;> rfl

theorem le_daysBeforeMonth_thirteen (year : Nat) : 365 ≤ daysBeforeMonth year 13 := by
  have h : daysBeforeMonth year 13 = daysBeforeMonth year 12 + 31 := rfl
  rw [h, daysBeforeMonth_twelve]
  split_ifs <;> omega

/-- What `monthAndDay` finds when day `n`, counted from the start of `month`, lies before the end of
the month `left` later: a day that exists, as many days after the start of the year. -/
theorem monthAndDay_spec (year : Nat) : ∀ left month n : Nat,
    daysBeforeMonth year month + n < daysBeforeMonth year (month + left + 1) →
      (1 ≤ (monthAndDay year month left n).2 ∧
        (monthAndDay year month left n).2 ≤ daysInMonth year (monthAndDay year month left n).1) ∧
      daysBeforeMonth year (monthAndDay year month left n).1 + (monthAndDay year month left n).2
        = daysBeforeMonth year month + n + 1 := by
  intro left
  induction left with
  | zero =>
    intro month n h
    simp only [daysBeforeMonth] at h
    simp only [monthAndDay]
    omega
  | succ left ih =>
    intro month n h
    rw [monthAndDay]
    by_cases hn : n < daysInMonth year month
    · simp only [if_pos hn]
      omega
    · simp only [if_neg hn]
      have hnext : daysBeforeMonth year (month + 1)
          = daysBeforeMonth year month + daysInMonth year month := rfl
      obtain ⟨hday, hsum⟩ := ih (month + 1) (n - daysInMonth year month) (by
        rw [hnext, show month + 1 + left + 1 = month + (left + 1) + 1 by omega]
        omega)
      refine ⟨hday, ?_⟩
      rw [hsum, hnext]
      omega

/-! ### Spans of years -/

/-- The days before the year after `q` times 400, `c` times 100, `f` times 4 and `y` years. -/
theorem daysBeforeYear_spans {q c f y : Nat} (hc : c ≤ 3) (hf : f ≤ 24) (hy : y ≤ 3) :
    daysBeforeYear (400 * q + 100 * c + 4 * f + y + 1)
      = 146097 * q + 36524 * c + 1461 * f + 365 * y := by
  simp only [daysBeforeYear]
  omega

/-- The last day of a leap year, which ends a span. -/
theorem exists_lastDay (year : Nat) (hlo : 1 ≤ year) (hhi : year ≤ 9999) (hleap : isLeap year) :
    ∃ d, ofParts? year 12 31 = some d ∧ d.ordinal = daysBeforeYear year + 366 := by
  have hday : 1 ≤ 31 ∧ 31 ≤ daysInMonth year 12 := ⟨by decide, Nat.le_refl 31⟩
  refine ⟨⟨year, 12, 31, ⟨hlo, hhi⟩, hday⟩, dif_pos ⟨⟨hlo, hhi⟩, hday⟩, ?_⟩
  simp only [ordinal, daysBeforeMonth_twelve, hleap, if_true]

/-- Day `n` of a year, counted from 0. -/
theorem exists_dayOfYear {year n : Nat} (hrange : 1 ≤ year ∧ year ≤ 9999) (hn : n < 365) :
    ∃ d, ofParts? year (monthAndDay year 1 11 n).1 (monthAndDay year 1 11 n).2 = some d ∧
      d.ordinal = daysBeforeYear year + n + 1 := by
  have hstart : daysBeforeMonth year 1 = 0 := rfl
  have hend := le_daysBeforeMonth_thirteen year
  obtain ⟨hday, hsum⟩ := monthAndDay_spec year 11 1 n (by
    rw [hstart]
    show 0 + n < daysBeforeMonth year 13
    omega)
  refine ⟨⟨year, _, _, hrange, hday⟩, dif_pos ⟨hrange, hday⟩, ?_⟩
  simp only [ordinal]
  rw [hstart] at hsum
  omega

/-- Every number of a day of the years 1 to 9999 is the ordinal of the date found for it. -/
theorem exists_ofOrdinal? {k : Nat} (hlo : 1 ≤ k) (hhi : k ≤ 3652059) :
    ∃ d, ofOrdinal? k = some d ∧ d.ordinal = k := by
  obtain ⟨n, rfl⟩ : ∃ n, k = n + 1 := ⟨k - 1, by omega⟩
  simp only [ofOrdinal?, Nat.add_sub_cancel]
  rw [if_neg (Nat.succ_ne_zero n)]
  generalize hq : n / 146097 = q
  generalize hn1 : n % 146097 = n1
  generalize hc : n1 / 36524 = c
  generalize hn2 : n1 % 36524 = n2
  generalize hf : n2 / 1461 = f
  generalize hn3 : n2 % 1461 = n3
  generalize hy : n3 / 365 = y
  by_cases hlast : c = 4 ∨ y = 4
  · -- The last day of 400 or of 4 years, which is the last day of the leap year in them.
    rw [if_pos hlast]
    rcases hlast with rfl | rfl
    · have hyear : 400 * q + 100 * 4 + 4 * f + y = 400 * q + 100 * 3 + 4 * 24 + 3 + 1 := by omega
      rw [hyear]
      obtain ⟨d, hd, hord⟩ := exists_lastDay (400 * q + 100 * 3 + 4 * 24 + 3 + 1)
        (by omega) (by omega) (by
          simp only [isLeap, Bool.and_eq_true, Bool.or_eq_true, beq_iff_eq]
          omega)
      refine ⟨d, hd, ?_⟩
      rw [hord, daysBeforeYear_spans (c := 3) (f := 24) (y := 3) (by omega) (by omega) (by omega)]
      omega
    · have hyear : 400 * q + 100 * c + 4 * f + 4 = 400 * q + 100 * c + 4 * f + 3 + 1 := rfl
      rw [hyear]
      obtain ⟨d, hd, hord⟩ := exists_lastDay (400 * q + 100 * c + 4 * f + 3 + 1)
        (by omega) (by omega) (by
          simp only [isLeap, Bool.and_eq_true, Bool.or_eq_true, beq_iff_eq, bne_iff_ne]
          omega)
      refine ⟨d, hd, ?_⟩
      rw [hord, daysBeforeYear_spans (by omega) (by omega) (by omega)]
      omega
  · rw [if_neg hlast]
    have hrange : 1 ≤ 400 * q + 100 * c + 4 * f + y + 1 ∧
        400 * q + 100 * c + 4 * f + y + 1 ≤ 9999 := by omega
    obtain ⟨d, hd, hord⟩ := exists_dayOfYear hrange (Nat.mod_lt n3 (by decide : 0 < 365))
    refine ⟨d, hd, ?_⟩
    rw [hord, daysBeforeYear_spans (by omega) (by omega) (by omega)]
    omega

/-- The days before year 10000 are those of the years 1 to 9999. -/
theorem lt_of_spans {q c f y n : Nat} (hq : n / 146097 = q) (hc : n % 146097 / 36524 = c)
    (hf : n % 146097 % 36524 / 1461 = f) (hy : n % 146097 % 36524 % 1461 / 365 = y)
    (h : 3652059 ≤ n) : 9999 ≤ 400 * q + 100 * c + 4 * f + y := by
  -- The bound is 24 times 400, 3 times 100, 24 times 4 and 3 years; longer spans come first.
  rcases Nat.lt_or_ge 24 q with hlt | hle
  · omega
  · rcases Nat.lt_or_ge 3 c with hlt | hle
    · omega
    · rcases Nat.lt_or_ge 24 f with hlt | hle
      · omega
      · omega

/-- No date has an ordinal past those of the years 1 to 9999. -/
theorem ofOrdinal?_eq_none {k : Nat} (h : 3652059 < k) : ofOrdinal? k = none := by
  have hparts : ∀ {year : Nat} (month day : Nat), 9999 < year → ofParts? year month day = none :=
    fun _ _ hyear => dif_neg (by omega)
  have hyear := lt_of_spans rfl rfl rfl rfl (show 3652059 ≤ k - 1 by omega)
  simp only [ofOrdinal?]
  rw [if_neg (by omega)]
  split
  · exact hparts 12 31 (by omega)
  · exact hparts _ _ (by omega)

theorem ordinal_lt (d : Date) : d.ordinal < 3660000 := by
  have hyear := d.year_range.2
  have hmonth := d.month_le
  have hmonths := daysBeforeMonth_le d.year d.month
  have hday := Nat.le_trans d.day_range.2 (daysInMonth_le d.year d.month)
  simp only [ordinal, daysBeforeYear]
  omega

end Date

namespace DateTime

/-- The instants of the years 1 to 9999 in UTC. -/
def InCalendar (microseconds : Int) : Prop :=
  -62135596800000000 ≤ microseconds ∧ microseconds < 253402300800000000

theorem microseconds_ofMicroseconds {n : Nat} (h : n < 86400000000) :
    (TimeOfDay.ofMicroseconds n).microseconds = n := by
  simp only [TimeOfDay.microseconds, TimeOfDay.ofMicroseconds]
  omega

/-- The time in UTC of an instant inside the calendar is a time at that instant. -/
theorem exists_ofInstant? {n : Int} (h : InCalendar n) :
    ∃ t, ofInstant? n = some t ∧ t.instant = n ∧ t.offset = some .utc := by
  obtain ⟨hlo, hhi⟩ := h
  generalize hm : n + 719162 * 86400000000 = m
  obtain ⟨k, rfl⟩ : ∃ k : Nat, m = k := ⟨m.toNat, by omega⟩
  obtain ⟨d, hd, hord⟩ := Date.exists_ofOrdinal? (k := k / 86400000000 + 1) (by omega) (by omega)
  refine ⟨⟨d, .ofMicroseconds (k % 86400000000), some .utc⟩, ?_, ?_, rfl⟩
  · simp only [ofInstant?, hm]
    rw [if_neg (by omega), Int.toNat_natCast, hd]
    rfl
  · simp only [instant, localMicroseconds, hord,
      microseconds_ofMicroseconds (Nat.mod_lt k (by decide : 0 < 86400000000)), Option.getD_some,
      Offset.utc]
    omega

/-- There is no time in UTC of an instant outside the calendar. -/
theorem ofInstant?_eq_none {n : Int} (h : ¬InCalendar n) : ofInstant? n = none := by
  simp only [InCalendar] at h
  simp only [ofInstant?]
  split
  · rfl
  · rw [Date.ofOrdinal?_eq_none (by omega)]
    rfl

/-- Every time is an instant within a day of the calendar. -/
theorem instant_bounds (t : DateTime) :
    -62300000000000000 < t.instant ∧ t.instant < 254200000000000000 := by
  have hordinal := t.date.ordinal_lt
  have htime : t.time.microseconds < 86400000000 := by
    have hhour := t.time.hour_lt
    have hminute := t.time.minute_lt
    have hsecond := t.time.second_lt
    have hmicrosecond := t.time.microsecond_lt
    simp only [TimeOfDay.microseconds]
    omega
  obtain ⟨hlo, hhi⟩ := (t.offset.getD .utc).range
  simp only [instant, localMicroseconds]
  omega

end DateTime

end CloudEnvelope
