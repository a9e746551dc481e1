import CloudEnvelope.Proofs.Calendar.Iso
import Mathlib.Data.List.Basic

/-!
# The grammar of RFC 3339

`Rfc3339.Spells` says which texts are a `date-time` of RFC 3339, section 5.6, and which time each of
them denotes, without a look at what reads them: any number of digits may stand in a fraction, the
letters `T` and `Z` may be small, and what a day or a second may be is a matter of the calendar.

`DateTime.ofIso?_of_spells`: every such text is read as the time that it denotes, unless its zone is
the small letter `z`, and then it is not read at all.  A capital `Z` is replaced before the reading
starts, and a small one is not.
-/

namespace CloudEnvelope

open Calendar IsoReader

namespace Rfc3339

/-! ### Forms -/

/-- Digits that fill a field, and the number that they spell. -/
structure Field (width : Nat) (ds : List Char) (n : Nat) : Prop where
  length_eq : ds.length = width
  isDigit : ∀ c ∈ ds, c.isDigit
  value_eq : Nat.ofDigitChars 10 ds 0 = n

/-- A year, a month and a day that the calendar knows. -/
inductive FullDate : List Char → Date → Prop
  | parts {year month day : List Char} {d : Date} (hyear : Field 4 year d.year)
      (hmonth : Field 2 month d.month) (hday : Field 2 day d.day) :
      FullDate (year ++ '-' :: (month ++ '-' :: day)) d

/-- The microseconds of a fraction of a second, cut where it is finer. -/
inductive Fraction : List Char → Nat → Prop
  | none : Fraction [] 0
  | digits {ds : List Char} (hne : ds ≠ []) (hds : ∀ c ∈ ds, c.isDigit) :
      Fraction ('.' :: ds) (Nat.ofDigitChars 10 ds 0 * 10 ^ 6 / 10 ^ ds.length)

/-- An hour, a minute, a second and its fraction. -/
inductive PartialTime : List Char → TimeOfDay → Prop
  | parts {hour minute second fraction : List Char} {t : TimeOfDay} (hhour : Field 2 hour t.hour)
      (hminute : Field 2 minute t.minute) (hsecond : Field 2 second t.second)
      (hfraction : Fraction fraction t.microsecond) :
      PartialTime (hour ++ ':' :: (minute ++ ':' :: (second ++ fraction))) t

/-- The letter for UTC, or the hours and minutes that a zone is ahead of it, or behind it after a
hyphen. -/
inductive Zone : List Char → Offset → Prop
  | utc {letter : Char} (hletter : letter = 'Z' ∨ letter = 'z') : Zone [letter] .utc
  | numeric {sign : Char} {hour minute : List Char} {h m : Nat} {o : Offset}
      (hsign : sign = '+' ∨ sign = '-') (hhour : Field 2 hour h) (hminute : Field 2 minute m)
      (hh : h < 24) (hm : m < 60)
      (ho : o.microseconds =
        if sign = '-' then -((60 * h + m) * 60000000 : Int) else (60 * h + m) * 60000000) :
      Zone (sign :: (hour ++ ':' :: minute)) o

/-- The text is a `date-time` and denotes the time. -/
inductive Spells : List Char → DateTime → Prop
  | parts {date time zone : List Char} {separator : Char} {d : Date} {t : TimeOfDay} {o : Offset}
      (hdate : FullDate date d) (hseparator : separator = 'T' ∨ separator = 't')
      (htime : PartialTime time t) (hzone : Zone zone o) :
      Spells (date ++ separator :: (time ++ zone)) ⟨d, t, some o⟩

/-! ### Fields -/

/-- A digit is what its number is written with. -/
theorem digitChar_of_isDigit {c : Char} (h : c.isDigit) :
    c.toNat - 48 < 10 ∧ (c.toNat - 48).digitChar = c := by
  have hrange : 48 ≤ c.toNat ∧ c.toNat ≤ 57 := by
    simpa [Char.isDigit, UInt32.le_iff_toNat_le] using h
  have hlt : c.toNat - 48 < 10 := by omega
  refine ⟨hlt, Char.toNat_inj.mp ?_⟩
  rw [Nat.toNat_digitChar_of_lt_ten hlt]
  omega

/-- Digits are those that their number is written with, filled to their length. -/
theorem eq_padded {w : Nat} {ds : List Char} (hlen : ds.length = w + 1)
    (hds : ∀ c ∈ ds, c.isDigit) : ds = padded (w + 1) (Nat.ofDigitChars 10 ds 0) := by
  induction w generalizing ds with
  | zero =>
    obtain ⟨c, rfl⟩ := List.length_eq_one_iff.mp hlen
    obtain ⟨hlt, hc⟩ := digitChar_of_isDigit (hds c List.mem_cons_self)
    have hvalue : Nat.ofDigitChars 10 [c] 0 = c.toNat - 48 := Nat.zero_add _
    rw [hvalue, show padded 1 _ = filled 10 1 _ from rfl, filled_one hlt, hc]
  | succ w ih =>
    -- The last digit is the remainder, and the induction is on what stands before it.
    have hne : ds ≠ [] := List.ne_nil_of_length_eq_add_one hlen
    obtain ⟨before, c, rfl⟩ : ∃ before c, ds = before ++ [c] :=
      ⟨ds.dropLast, ds.getLast hne, (List.dropLast_concat_getLast hne).symm⟩
    have hlen' : before.length = w + 1 := by simpa using hlen
    have hbefore := ih hlen' fun d hd => hds d (List.mem_append_left _ hd)
    obtain ⟨hlt, hc⟩ := digitChar_of_isDigit (hds c (List.mem_append_right _ List.mem_cons_self))
    have hvalue : Nat.ofDigitChars 10 (before ++ [c]) 0
        = 10 * Nat.ofDigitChars 10 before 0 + (c.toNat - 48) := Nat.ofDigitChars_append 0
    rw [hvalue, show padded (w + 2) _ = filled 10 (w + 2) _ from rfl, filled_add_two (by decide)]
    generalize Nat.ofDigitChars 10 before 0 = n at hbefore
    have hdiv : (10 * n + (c.toNat - 48)) / 10 = n := by omega
    have hmod : (10 * n + (c.toNat - 48)) % 10 = c.toNat - 48 := by omega
    rw [hdiv, hmod, hc, hbefore]
    rfl

theorem Field.eq_padded {w : Nat} {ds : List Char} {n : Nat} (h : Field (w + 1) ds n) :
    ds = padded (w + 1) n := by
  rw [← h.value_eq]
  exact Rfc3339.eq_padded h.length_eq h.isDigit

theorem FullDate.eq_iso {cs : List Char} {d : Date} (h : FullDate cs d) : cs = d.iso := by
  obtain ⟨hyear, hmonth, hday⟩ := h
  rw [hyear.eq_padded, hmonth.eq_padded, hday.eq_padded, Date.iso]
  simp only [List.append_assoc, List.cons_append]

/-! ### Fractions -/

/-- Digits behind a number leave it as what stands before them. -/
theorem ofDigitChars_div {ds : List Char} (hds : ∀ c ∈ ds, c.isDigit) (n : Nat) :
    Nat.ofDigitChars 10 ds n / 10 ^ ds.length = n := by
  induction ds generalizing n with
  | nil => exact Nat.div_one n
  | cons c ds ih =>
    rw [List.forall_mem_cons] at hds
    obtain ⟨hlt, -⟩ := digitChar_of_isDigit hds.1
    have hdigit : (10 * n + (c.toNat - 48)) / 10 = n := by omega
    rw [List.length_cons, Nat.pow_succ, ← Nat.div_div_eq_div_mul]
    exact (congrArg (· / 10) (ih hds.2 _)).trans hdigit

/-- The first six digits of a fraction are its microseconds: those that follow are cut off. -/
theorem microsecondsOf_eq {ds : List Char} (hds : ∀ c ∈ ds, c.isDigit) :
    microsecondsOf ds = Nat.ofDigitChars 10 ds 0 * 10 ^ 6 / 10 ^ ds.length := by
  rw [microsecondsOf]
  rcases Nat.le_total ds.length 6 with hshort | hlong
  · have hpow : 10 ^ 6 = 10 ^ (6 - ds.length) * 10 ^ ds.length := by
      rw [← Nat.pow_add, Nat.sub_add_cancel hshort]
    rw [List.take_of_length_le hshort, hpow, ← Nat.mul_assoc,
      Nat.mul_div_cancel _ (Nat.pow_pos (by decide))]
    rfl
  · have hpow : 10 ^ ds.length = 10 ^ (ds.length - 6) * 10 ^ 6 := by
      rw [← Nat.pow_add, Nat.sub_add_cancel hlong]
    have hcut : Nat.ofDigitChars 10 ds 0
        = Nat.ofDigitChars 10 (ds.drop 6) (Nat.ofDigitChars 10 (ds.take 6) 0) := by
      rw [← Nat.ofDigitChars_append, List.take_append_drop]
    have hdrop : ∀ c ∈ ds.drop 6, c.isDigit := fun c hc => hds c (List.mem_of_mem_drop hc)
    have hrest := ofDigitChars_div hdrop (Nat.ofDigitChars 10 (ds.take 6) 0)
    rw [List.length_drop] at hrest
    rw [hpow, Nat.mul_div_mul_right _ _ (Nat.pow_pos (by decide)), hcut, hrest,
      List.length_take_of_le hlong]
    exact Nat.mul_one _

/-! ### Times of day -/

variable {left n micro : Nat} {separated : Option Bool} {cs fraction date time : List Char}
  {separator : Char} {d : Date} {t : TimeOfDay} {o : Offset}

theorem clock?_second (h : n < 100) (hfraction : Fraction fraction micro) :
    clock? (left + 1) separated (padded 2 n ++ fraction) = some ⟨[n], micro, true⟩ := by
  cases hfraction with
  | none => rw [List.append_nil, clock?_field h]
  | digits hne hds => rw [clock?_point h hne hds, microsecondsOf_eq hds]

/-- A small letter behind the digits of a fraction is left over, or is taken for one of them. -/
theorem fraction?_small {ds : List Char} (hds : ∀ c ∈ ds, c.isDigit) {c : Clock}
    (h : fraction? (ds ++ ['z']) = some c) : c.clean = false := by
  rcases Nat.lt_or_ge ds.length 6 with hshort | hlong
  · have htake : (ds ++ ['z']).take 6 = ds ++ ['z'] :=
      List.take_of_length_le (by rw [List.length_append]; exact Nat.succ_le_of_lt hshort)
    have hnone : number? (ds ++ ['z']) = none := if_neg (by simp)
    rw [fraction?, htake, hnone] at h
    cases h
  · have hrest : ((ds ++ ['z']).drop 6).dropWhile Char.isDigit = ['z'] := by
      rw [List.drop_append_of_le_length hlong]
      refine dropWhile_isDigit_append (fun c hc => hds c (List.mem_of_mem_drop hc)) ?_
      rintro c ⟨⟩
      rfl
    rw [fraction?, hrest] at h
    obtain ⟨n, -, hn⟩ := Option.bind_eq_some_iff.mp h
    cases hn
    rfl

theorem clock?_second_small (h : n < 100) (hfraction : Fraction fraction micro) {c : Clock}
    (hc : clock? (left + 1) separated (padded 2 n ++ (fraction ++ ['z'])) = some c) :
    c.clean = false := by
  cases hfraction with
  | none =>
    have hletter : clock? (left + 1) separated (padded 2 n ++ ['z']) = some ⟨[n], 0, false⟩ := by
      rw [padded_two h, List.cons_append, List.cons_append, clock?, number?_of_lt h]
      rfl
    rw [List.nil_append, hletter] at hc
    cases hc
    rfl
  | digits hne hds =>
    rw [List.cons_append, clock?_fraction h (by simp)] at hc
    obtain ⟨found, hfound, rfl⟩ := Option.map_eq_some_iff.mp hc
    have hclean : found.clean = false := fraction?_small hds hfound
    exact hclean

/-- Hour and minute come before the reading of what follows them. -/
theorem clock?_hourMinute {hour minute : Nat} (hhour : hour < 100) (hminute : minute < 100)
    (hcs : cs ≠ []) : clock? 3 none (padded 2 hour ++ ':' :: (padded 2 minute ++ ':' :: cs))
      = ((clock? 1 (some true) cs).map (Clock.before minute)).map (Clock.before hour) := by
  rw [clock?_colon hhour (by simp) (by simp), clock?_colon hminute (by simp) hcs]

/-- The fields of a time of day, whatever stands behind them. -/
theorem PartialTime.exists_form (h : PartialTime time t) : ∃ fraction,
    time = padded 2 t.hour ++ ':' :: (padded 2 t.minute ++ ':' :: (padded 2 t.second ++ fraction)) ∧
      Fraction fraction t.microsecond := by
  obtain ⟨hhour, hminute, hsecond, hfraction⟩ := h
  refine ⟨_, ?_, hfraction⟩
  rw [hhour.eq_padded, hminute.eq_padded, hsecond.eq_padded]

theorem padded_append_ne_nil (h : n < 100) (cs : List Char) : padded 2 n ++ cs ≠ [] := by
  rw [padded_two h]
  exact List.cons_ne_nil _ _

theorem clock?_partialTime (h : PartialTime time t) :
    clock? 3 none time = some ⟨[t.hour, t.minute, t.second], t.microsecond, true⟩ := by
  have hhour := t.hour_lt
  have hminute := t.minute_lt
  have hsecond : t.second < 100 := Nat.lt_trans t.second_lt (by decide)
  obtain ⟨fraction, rfl, hfraction⟩ := h.exists_form
  rw [clock?_hourMinute (by omega) (by omega) (padded_append_ne_nil hsecond _),
    clock?_second hsecond hfraction]
  rfl

/-- A small letter behind a time of day is not taken for a zone. -/
theorem clock?_partialTime_small (h : PartialTime time t) {c : Clock}
    (hc : clock? 3 none (time ++ ['z']) = some c) : c.clean = false := by
  have hhour := t.hour_lt
  have hminute := t.minute_lt
  have hsecond : t.second < 100 := Nat.lt_trans t.second_lt (by decide)
  obtain ⟨fraction, rfl, hfraction⟩ := h.exists_form
  simp only [List.append_assoc, List.cons_append] at hc
  rw [clock?_hourMinute (by omega) (by omega) (padded_append_ne_nil hsecond _)] at hc
  simp only [Option.map_eq_some_iff] at hc
  obtain ⟨_, ⟨found, hfound, rfl⟩, rfl⟩ := hc
  have hclean : found.clean = false := clock?_second_small hsecond hfraction hfound
  exact hclean

theorem PartialTime.mem {c : Char} (h : PartialTime time t) (hc : c ∈ time) :
    c.isDigit ∨ c ∈ clockMarks := by
  obtain ⟨hhour, hminute, hsecond, hfraction⟩ := h
  by_contra hnot
  obtain ⟨hdigit, hmark⟩ := not_or.mp hnot
  have hfield : ∀ {w ds n}, Field w ds n → c ∉ ds := fun hds hc => hdigit (hds.isDigit c hc)
  simp only [clockMarks, List.mem_cons, List.not_mem_nil, or_false, not_or] at hmark
  generalize t.microsecond = micro at hfraction
  cases hfraction with
  | none => simp [hfield hhour, hfield hminute, hfield hsecond, hmark] at hc
  | digits hne hds =>
    have hfraction : c ∉ _ := fun hc => hdigit (hds c hc)
    simp [hfield hhour, hfield hminute, hfield hsecond, hmark, hfraction] at hc

/-- The first sign starts the zone. -/
theorem PartialTime.not_isSign (h : PartialTime time t) : ∀ c ∈ time, (!isSign c) = true := by
  intro c hc
  rw [Bool.not_eq_true', isSign, Bool.or_eq_false_iff, beq_eq_false_iff_ne, beq_eq_false_iff_ne]
  constructor <;> rintro rfl <;> exact absurd (h.mem hc) (by decide)

/-! ### Zones -/

/-- Hours and minutes are read as an offset. -/
theorem offset?_of_minutes {negative : Bool} {h m : Nat} {o : Offset}
    (ho : o.microseconds =
      if negative then -((60 * h + m) * 60000000 : Int) else (60 * h + m) * 60000000) :
    Clock.offset? ⟨[h, m], 0, true⟩ negative = some o := by
  have hseconds : (h * 60 + m) * 60 = 0 ↔ o.microseconds = 0 := by
    rw [ho]
    split <;> omega
  show (if (h * 60 + m) * 60 = 0 then some Offset.utc else Offset.ofMicroseconds?
    (if negative then -(((h * 60 + m) * 60 : Nat) * 1000000 + (0 : Nat) : Int)
      else ((h * 60 + m) * 60 : Nat) * 1000000 + (0 : Nat))) = some o
  split
  · rename_i hzero
    obtain ⟨n, hn⟩ := o
    obtain rfl : n = 0 := hseconds.mp hzero
    rfl
  · have hn : (if negative then -(((h * 60 + m) * 60 : Nat) * 1000000 + (0 : Nat) : Int)
        else ((h * 60 + m) * 60 : Nat) * 1000000 + (0 : Nat)) = o.microseconds := by
      rw [ho]
      split <;> omega
    rw [hn]
    exact dif_pos o.range

theorem clock?_zone {hour minute : List Char} {h m : Nat} (hhour : Field 2 hour h)
    (hminute : Field 2 minute m) (hh : h < 24) (hm : m < 60) :
    clock? 3 none (hour ++ ':' :: minute) = some ⟨[h, m], 0, true⟩ := by
  have hne : minute ≠ [] := List.ne_nil_of_length_eq_add_one hminute.length_eq
  rw [hhour.eq_padded, clock?_colon (by omega) (by simp) hne, hminute.eq_padded,
    clock?_field (by omega)]
  rfl

/-- A time of day and a zone behind it are read one by one, unless the zone is a letter. -/
theorem time?_numeric {sign : Char} {rest : List Char} (htime : PartialTime time t)
    (hzone : Zone (sign :: rest) o) (hsign : isSign sign) :
    time? (time ++ sign :: rest) = some (t, some o) := by
  have hparts : Clock.timeOfDay? ⟨[t.hour, t.minute, t.second], t.microsecond, true⟩ = some t :=
    TimeReader.ofParts?_parts t
  rw [time?, List.takeWhile_append_of_pos htime.not_isSign,
    List.dropWhile_append_of_pos htime.not_isSign, List.takeWhile_cons_of_neg (by simp [hsign]),
    List.dropWhile_cons_of_neg (by simp [hsign]), List.append_nil, clock?_partialTime htime]
  cases hzone with
  | utc hletter => rcases hletter with rfl | rfl <;> cases hsign
  | numeric _ hhour hminute hh hm ho =>
    have hoffset := offset?_of_minutes (ho.trans (if_congr beq_iff_eq.symm rfl rfl))
    simp only [Option.bind_eq_bind, Option.bind_some, hparts, clock?_zone hhour hminute hh hm,
      if_true, hoffset]

/-- Behind a sign stand digits and a colon, and no letter. -/
theorem Zone.mem {sign c : Char} {rest : List Char} (h : Zone (sign :: rest) o)
    (hsign : isSign sign) (hc : c ∈ sign :: rest) : c.isDigit ∨ c ∈ ['+', '-', ':'] := by
  cases h with
  | utc hletter => rcases hletter with rfl | rfl <;> cases hsign
  | numeric hsign hhour hminute =>
    rw [List.mem_cons, List.mem_append, List.mem_cons] at hc
    rcases hc with rfl | hc | rfl | hc
    · rcases hsign with rfl | rfl <;> decide
    · exact .inl (hhour.isDigit c hc)
    · exact .inr (by decide)
    · exact .inl (hminute.isDigit c hc)

/-- The offset that is put for a `Z`. -/
theorem zone_utc : Zone "+00:00".toList .utc := by
  have hzero : Field 2 ['0', '0'] 0 := ⟨rfl, by simp, by decide⟩
  exact .numeric (.inl rfl) hzero hzero (by decide) (by decide) rfl

/-- The zone of a small `z` is not read. -/
theorem time?_small (htime : PartialTime time t) : time? (time ++ ['z']) = none := by
  have hsigns : ∀ c ∈ time ++ ['z'], (!isSign c) = true := by
    rw [List.forall_mem_append]
    exact ⟨htime.not_isSign, by simp [isSign]⟩
  rw [time?, List.takeWhile_eq_self_iff.mpr hsigns, List.dropWhile_eq_nil_iff.mpr hsigns]
  cases hclock : clock? 3 none (time ++ ['z']) with
  | none => rfl
  | some c =>
    have hclean : c.clean = false := clock?_partialTime_small htime hclock
    simp only [Option.bind_eq_bind, Option.bind_some, hclean]
    cases c.timeOfDay? <;> rfl

/-! ### Texts -/

/-- A `Z` is replaced in the zone only: there is none before it. -/
theorem substitute_form (hdate : FullDate date d) (hseparator : separator = 'T' ∨ separator = 't')
    (htime : PartialTime time t) (zone : List Char) (new : Text) :
    (Text.ofChars (date ++ separator :: (time ++ zone))).substitute 'Z' new
      = Text.ofChars (d.iso ++ separator :: time) ++ (Text.ofChars zone).substitute 'Z' new := by
  have hbefore : 'Z' ∉ d.iso ++ separator :: time := by
    rw [List.mem_append, List.mem_cons, not_or, not_or]
    refine ⟨fun h => absurd (Date.mem_iso h) (by decide), ?_,
      fun h => absurd (htime.mem h) (by decide)⟩
    rcases hseparator with rfl | rfl <;> decide
  have hform : Text.ofChars (date ++ separator :: (time ++ zone))
      = Text.ofChars (d.iso ++ separator :: time) ++ Text.ofChars zone := by
    simp [Text.ofChars, hdate.eq_iso]
  rw [hform, substitute_append, substitute_of_notMem hbefore]

/-- The form is read as its date, and the time of day and the zone behind the separator. -/
theorem ofIso?_form {zone zone' : List Char} (hdate : FullDate date d)
    (hseparator : separator = 'T' ∨ separator = 't') (htime : PartialTime time t)
    (hzone : (Text.ofChars zone).substitute 'Z' "+00:00" = Text.ofChars zone') :
    DateTime.ofIso? (Text.ofChars (date ++ separator :: (time ++ zone)))
      = (time? (time ++ zone')).map fun p => ⟨d, p.1, p.2⟩ := by
  have hform : (Text.ofChars (date ++ separator :: (time ++ zone))).substitute 'Z' "+00:00"
      = Text.ofChars (d.iso ++ separator :: (time ++ zone')) := by
    rw [substitute_form hdate hseparator htime, hzone]
    simp [Text.ofChars]
  exact DateTime.ofIso?_of_substitute hform

theorem getLast?_form {zone : List Char} (hne : zone ≠ []) :
    (date ++ separator :: (time ++ zone)).getLast? = zone.getLast? := by
  rw [← List.cons_append, ← List.append_assoc, List.getLast?_append_of_ne_nil _ hne]

/-- A form with a sign is read, and ends with a digit. -/
theorem ofIso?_numeric {sign : Char} {rest : List Char} (hdate : FullDate date d)
    (hseparator : separator = 'T' ∨ separator = 't') (htime : PartialTime time t)
    (hzone : Zone (sign :: rest) o) (hsign : isSign sign) :
    DateTime.ofIso? (Text.ofChars (date ++ separator :: (time ++ sign :: rest)))
        = some ⟨d, t, some o⟩ ∧
      (date ++ separator :: (time ++ sign :: rest)).getLast? ≠ some 'z' := by
  constructor
  · have hcapital : 'Z' ∉ sign :: rest := fun hmem => absurd (hzone.mem hsign hmem) (by decide)
    rw [ofIso?_form hdate hseparator htime (substitute_of_notMem hcapital _),
      time?_numeric htime hzone hsign]
    rfl
  · rw [getLast?_form (List.cons_ne_nil _ _)]
    intro hlast
    exact absurd (hzone.mem hsign (List.mem_of_getLast? hlast)) (by decide)

end Rfc3339

open Rfc3339

/-- A text of the grammar is read as the time that it denotes, unless it ends with a small `z`, and
then it is not read. -/
theorem DateTime.ofIso?_of_spells {cs : List Char} {t : DateTime} (h : Spells cs t) :
    ofIso? (Text.ofChars cs) = if cs.getLast? = some 'z' then none else some t := by
  obtain ⟨hdate, hseparator, htime, hzone⟩ := h
  cases hcase : hzone with
  | utc hletter =>
    rcases hletter with rfl | rfl
    · have hutc : (Text.ofChars ['Z']).substitute 'Z' "+00:00" = Text.ofChars "+00:00".toList := rfl
      rw [ofIso?_form hdate hseparator htime hutc, getLast?_form (List.cons_ne_nil _ _)]
      exact congrArg (Option.map _) (time?_numeric htime zone_utc rfl)
    · have hsmall : (Text.ofChars ['z']).substitute 'Z' "+00:00" = Text.ofChars ['z'] := rfl
      rw [ofIso?_form hdate hseparator htime hsmall, time?_small htime,
        getLast?_form (List.cons_ne_nil _ _)]
      rfl
  | numeric hplus =>
    obtain ⟨hread, hlast⟩ := ofIso?_numeric hdate hseparator htime hzone
      (by rcases hplus with rfl | rfl <;> rfl)
    rw [hread, if_neg hlast]

end CloudEnvelope
