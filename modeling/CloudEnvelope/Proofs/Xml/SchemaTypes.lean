import CloudEnvelope.Number.Word
import CloudEnvelope.Proofs.Base64
import CloudEnvelope.Proofs.Calendar.Rfc3339
import CloudEnvelope.Proofs.Xml.Grammar

/-!
# Simple types of XML Schema

`SchemaType.accepts` says which texts are lexical forms of the types that elements say they have, as
XML Schema defines them: without a look at what the writer does.  The forms that are written are
compared with it type by type: numbers (`SchemaType.isInt_of_integer?`), bytes
(`SchemaType.isBase64Binary_encode`) and times (`SchemaType.isDateTime_rfc3339`).
-/

namespace CloudEnvelope

open Calendar TimeReader

/-- The offset is one that XML Schema knows: a whole number of minutes, and at most fourteen
hours. -/
def Offset.IsZone (o : Offset) : Prop :=
  o.WholeMinutes ∧ o.microseconds.natAbs ≤ 50400000000

namespace Xml

/-- The simple types of elements. -/
inductive SchemaType where
  | boolean
  | int
  | base64Binary
  | dateTime
  | string
  | anyURI
deriving DecidableEq, Repr

namespace SchemaType

/-- The name by which an element has the type. -/
def name : SchemaType → String
  | boolean => "xs:boolean"
  | int => "xs:int"
  | base64Binary => "xs:base64Binary"
  | dateTime => "xs:dateTime"
  | string => "xs:string"
  | anyURI => "xs:anyURI"

/-! ### Lexical forms -/

/-- A truth value is a word or a digit. -/
def isBoolean (cs : List Char) : Bool :=
  [['t', 'r', 'u', 'e'], ['f', 'a', 'l', 's', 'e'], ['1'], ['0']].contains cs

/-- An integer is a sign, if any, and digits, and fits 32 bits. -/
def isInt (cs : List Char) : Bool := (integer? cs).any (Word.holds 32)

/-- Blanks stand alone, and neither at the start nor at the end. -/
def isSpaced : List Char → Bool
  | [] => true
  | [c] => c != ' '
  | c :: ' ' :: rest => c != ' ' && !rest.isEmpty && isSpaced rest
  | c :: rest => c != ' ' && isSpaced rest

/-- A digit whose number is a multiple of another: the bits behind the last byte are zero. -/
def isBase64Digit (multiple : Nat) (c : Char) : Bool := (Base64.value? c).any (· % multiple == 0)

/-- Bytes are groups of four digits; the last group may be padded. -/
def isGroups : List Char → Bool
  | [] => true
  | [a, b, '=', '='] => isBase64Digit 1 a && isBase64Digit 16 b
  | [a, b, c, '='] => isBase64Digit 1 a && isBase64Digit 1 b && isBase64Digit 4 c
  | a :: b :: c :: d :: rest =>
    isBase64Digit 1 a && isBase64Digit 1 b && isBase64Digit 1 c && isBase64Digit 1 d
      && isGroups rest
  | _ => false

/-- Bytes may have a blank between any two of their digits. -/
def isBase64Binary (cs : List Char) : Bool := isSpaced cs && isGroups (cs.filter (· ≠ ' '))

/-- A year has four digits, or more of which the first is not zero. -/
def isYear (digits : List Char) : Bool :=
  4 ≤ digits.length && (digits.length = 4 || digits.head? ≠ some '0')

/-- An hour, a minute, a second and its fraction; a day may also end with the hour 24. -/
def isTimeOfDay (hour minute second : Nat) (fraction : List Char) : Bool :=
  (hour < 24 && minute < 60 && second < 60)
    || (hour = 24 && minute = 0 && second = 0 && fraction.all (· = '0'))

/-- A zone is left open, or UTC, or a sign, hours and minutes of at most fourteen hours. -/
def isZone : List Char → Bool
  | [] => true
  | ['Z'] => true
  | [sign, a, b, ':', c, d] =>
    ['+', '-'].contains sign && (pair? a b).any fun hour => (pair? c d).any fun minute =>
      minute < 60 && 60 * hour + minute ≤ 840
  | _ => false

/-- A time of day and a zone. -/
def isTime : List Char → Bool
  | a :: b :: ':' :: c :: d :: ':' :: e :: f :: rest =>
    (pair? a b).any fun hour => (pair? c d).any fun minute => (pair? e f).any fun second =>
      match rest with
      | '.' :: more =>
        let fraction := more.takeWhile Char.isDigit
        !fraction.isEmpty && isTimeOfDay hour minute second fraction
          && isZone (more.dropWhile Char.isDigit)
      | zone => isTimeOfDay hour minute second [] && isZone zone
  | _ => false

/-- A month, a day of the month and a time, after the year. -/
def isInYear (year : Nat) : List Char → Bool
  | '-' :: a :: b :: '-' :: c :: d :: 'T' :: rest =>
    (pair? a b).any fun month => (pair? c d).any fun day =>
      1 ≤ day && day ≤ daysInMonth year month && isTime rest
  | _ => false

/-- A point in time is a year, which may be before the first, and the rest after it. -/
def isDateTime (cs : List Char) : Bool :=
  let cs := if cs.head? = some '-' then cs.tail else cs
  let year := cs.takeWhile Char.isDigit
  isYear year && isInYear (Nat.ofDigitChars 10 year 0) (cs.dropWhile Char.isDigit)

/-- The text is a lexical form of the type. -/
def accepts : SchemaType → List Char → Bool
  | boolean => isBoolean
  | int => isInt
  | base64Binary => isBase64Binary
  | dateTime => isDateTime
  | string => fun cs => cs.all Grammar.isChar
  | anyURI => fun cs => cs.all Grammar.isChar

/-- The text is a lexical form of the type of the name. -/
def Fits (typeName text : Text) : Prop :=
  ∃ s : SchemaType, typeName = s.name ∧ ∃ cs, text = Text.ofChars cs ∧ s.accepts cs

/-- Types are told apart by their names. -/
theorem name_inj {s s' : SchemaType} : (s.name : Text) = s'.name ↔ s = s' := by
  cases s <;> cases s' <;> decide

theorem fits_ofChars_iff {s : SchemaType} {cs : List Char} :
    Fits s.name (Text.ofChars cs) ↔ s.accepts cs := by
  constructor
  · rintro ⟨s', hname, cs', htext, h⟩
    rw [name_inj.mp hname, Text.ofChars_inj.mp htext]
    exact h
  · exact fun h => ⟨s, rfl, cs, rfl, h⟩

/-! ### Numbers -/

theorem isInt_of_integer? {cs : List Char} {n : Int} (h : integer? cs = some n) :
    isInt cs = Word.holds 32 n := by
  rw [isInt, h, Option.any_some]

/-- The decimal form of an integer spells it. -/
theorem exists_integer?_ofInt (n : Int) :
    ∃ cs, Text.ofInt n = Text.ofChars cs ∧ integer? cs = some n := by
  have hdigits : ∀ n, Nat.toDigits 10 n ≠ [] ∧ (Nat.toDigits 10 n).all Char.isDigit := fun n =>
    ⟨Nat.toDigits_ne_nil, List.all_eq_true.mpr fun _ hc =>
      Nat.isDigit_of_mem_toDigits (by decide) (by decide) hc⟩
  cases n with
  | ofNat n =>
    refine ⟨_, rfl, ?_⟩
    have hsigned : signed (Nat.toDigits 10 n) = (false, Nat.toDigits 10 n) := by
      obtain ⟨d, ds, hd⟩ := List.exists_cons_of_ne_nil (hdigits n).1
      rw [hd]
      exact signed_of_isDigit
        (Nat.isDigit_of_mem_toDigits (by decide) (by decide) (hd ▸ List.mem_cons_self)) ds
    simp only [integer?, hsigned, if_pos (hdigits n), Nat.ofDigitChars_ten_toDigits]
    rfl
  | negSucc n =>
    refine ⟨'-' :: Nat.toDigits 10 (n + 1), rfl, ?_⟩
    simp only [integer?, signed, if_pos (hdigits (n + 1)),
      Nat.ofDigitChars_ten_toDigits]
    rfl

/-! ### Bytes -/

theorem isSpaced_of_notMem {cs : List Char} (h : ' ' ∉ cs) : isSpaced cs := by
  fun_induction isSpaced cs with
  | case1 => rfl
  | case2 c => exact bne_iff_ne.mpr fun heq => h (heq ▸ List.mem_singleton_self _)
  | case3 c rest ih => simp at h
  | case4 c rest hrest hblank ih =>
    rw [List.mem_cons, not_or] at h
    rw [Bool.and_eq_true, bne_iff_ne]
    exact ⟨Ne.symm h.1, ih h.2⟩

theorem isBase64Digit_digit {n : Nat} (h : n < 64) {multiple : Nat} (hn : n % multiple = 0) :
    isBase64Digit multiple (Base64.digit n) := by
  rw [isBase64Digit, Base64.value?_digit h, Option.any_some, hn]
  rfl

theorem isGroups_encode (bytes : Bytes) : isGroups (Base64.encode bytes) := by
  fun_induction Base64.encode bytes with
  | case1 => rfl
  | case2 a =>
    have ha := a.toNat_lt
    rw [isGroups, isBase64Digit_digit (by omega) (Nat.mod_one _),
      isBase64Digit_digit (by omega) (Nat.mul_mod_left _ _)]
    rfl
  | case3 a b =>
    have ha := a.toNat_lt
    have hb := b.toNat_lt
    rw [isGroups, isBase64Digit_digit (by omega) (Nat.mod_one _),
      isBase64Digit_digit (by omega) (Nat.mod_one _),
      isBase64Digit_digit (by omega) (Nat.mul_mod_left _ _)]
    · rfl
    · exact Base64.digit_ne_padding (by omega)
  | case4 a b c rest ih =>
    have ha := a.toNat_lt
    have hb := b.toNat_lt
    have hc := c.toNat_lt
    rw [isGroups, isBase64Digit_digit (by omega) (Nat.mod_one _),
      isBase64Digit_digit (by omega) (Nat.mod_one _),
      isBase64Digit_digit (by omega) (Nat.mod_one _),
      isBase64Digit_digit (by omega) (Nat.mod_one _), ih]
    -- The last digit of a whole group is no padding, so the group is none that is padded.
    · rfl
    · exact fun hpadding => absurd hpadding (Base64.digit_ne_padding (by omega))
    · exact fun hpadding => absurd hpadding (Base64.digit_ne_padding (by omega))

/-- Bytes in base64 are a lexical form. -/
theorem isBase64Binary_encode (bytes : Bytes) : isBase64Binary (Base64.encode bytes) := by
  have hblank : ' ' ∉ Base64.encode bytes := by
    intro h
    rcases Base64.mem_encode h with h | ⟨n, hn, h⟩
    · cases h
    · have table : ∀ i : Fin 64, ' ' ≠ Base64.digit i := by decide
      exact table ⟨n, hn⟩ h
  have hfilter : (Base64.encode bytes).filter (· ≠ ' ') = Base64.encode bytes :=
    List.filter_eq_self.mpr fun c hc => decide_eq_true fun heq => hblank (heq ▸ hc)
  rw [isBase64Binary, hfilter, isSpaced_of_notMem hblank, isGroups_encode]
  rfl

/-! ### Times -/

/-- A year of four digits and a month and a day that exist come before a time. -/
theorem isDateTime_iso (d : Date) (rest : List Char) :
    isDateTime (d.iso ++ 'T' :: rest) = isTime rest := by
  obtain ⟨hyear, hmonth, hday⟩ := parts_lt d
  have hdigits : ∀ c ∈ padded 4 d.year, c.isDigit := fun _ hc => isDigit_of_mem_padded hc
  have hlen : (padded 4 d.year).length = 4 := length_padded (by decide) (by omega)
  generalize hafter : '-' :: (padded 2 d.month ++ '-' :: (padded 2 d.day ++ 'T' :: rest)) = after
  have hform : d.iso ++ 'T' :: rest = padded 4 d.year ++ after := by
    rw [← hafter, Date.iso]
    simp only [List.append_assoc, List.cons_append]
  have hhyphen : NoDigit after := by
    rw [← hafter]
    rintro c ⟨⟩
    rfl
  have hpositive : (padded 4 d.year ++ after).head? ≠ some '-' := by
    obtain ⟨c, cs, hc⟩ := List.exists_cons_of_length_eq_add_one hlen
    rw [hc]
    rintro ⟨⟩
    have hdigit := hdigits '-' (hc ▸ List.mem_cons_self)
    cases hdigit
  have hrest : isInYear d.year after = isTime rest := by
    rw [← hafter, padded_two hmonth, padded_two hday]
    simp only [List.cons_append, List.nil_append, isInYear, pair?_of_lt hmonth, pair?_of_lt hday,
      Option.any_some, d.day_range.1, d.day_range.2, decide_true, Bool.true_and]
  rw [hform, isDateTime, if_neg hpositive, takeWhile_isDigit_append hdigits hhyphen,
    dropWhile_isDigit_append hdigits hhyphen, Calendar.ofDigitChars_padded, hrest, isYear, hlen]
  rfl

/-- A time of day comes before a zone. -/
theorem isTime_iso (t : TimeOfDay) {zone : List Char} (h : EndsTime zone) :
    isTime (t.iso ++ zone) = isZone zone := by
  have hhour := t.hour_lt
  have hminute := t.minute_lt
  have hsecond := t.second_lt
  have hmicro := t.microsecond_lt
  have hday : ∀ fraction, isTimeOfDay t.hour t.minute t.second fraction := fun fraction => by
    simp only [isTimeOfDay, hhour, hminute, hsecond, decide_true, Bool.and_self, Bool.true_or]
  rw [TimeOfDay.iso, padded_two (by omega), padded_two (by omega), padded_two (by omega)]
  simp only [List.cons_append, List.nil_append, isTime, pair?_of_lt (show t.hour < 100 by omega),
    pair?_of_lt (show t.minute < 100 by omega), pair?_of_lt (show t.second < 100 by omega),
    Option.any_some]
  by_cases hzero : t.microsecond = 0
  · rw [if_pos hzero, List.nil_append]
    split
    · -- A zone does not begin with a point.
      exact absurd rfl (h.2 '.' rfl).1
    · rw [hday, Bool.true_and]
  · have hlen : (padded 6 t.microsecond).length = 6 := length_padded (by decide) (by omega)
    have hdigits : ∀ c ∈ padded 6 t.microsecond, c.isDigit := fun _ hc => isDigit_of_mem_padded hc
    have hne : (padded 6 t.microsecond).isEmpty = false := by
      rw [List.isEmpty_eq_false_iff]
      intro hnil
      rw [hnil] at hlen
      cases hlen
    rw [if_neg hzero]
    simp only [List.cons_append, takeWhile_isDigit_append hdigits h.1,
      dropWhile_isDigit_append hdigits h.1, hne, hday, Bool.not_false, Bool.true_and]

/-- What is written of an offset is a zone when it has whole minutes and at most fourteen hours. -/
theorem isZone_zone_iff (o : Offset) :
    isZone (if o = .utc then ['Z'] else o.iso) ↔ o.IsZone := by
  by_cases hutc : o = .utc
  · rw [if_pos hutc, hutc]
    exact iff_of_true rfl ⟨rfl, Nat.zero_le _⟩
  rw [if_neg hutc]
  by_cases hwhole : o.WholeMinutes
  · have hrange := o.range
    have hminutes : o.microseconds % 60000000 = 0 := hwhole
    have hsign : ['+', '-'].contains (if o.microseconds < 0 then '-' else '+') := by
      split <;> rfl
    rw [iso_of_wholeMinutes hwhole, Offset.IsZone, and_iff_right hwhole]
    generalize hm : o.microseconds.natAbs / 60000000 = m
    rw [padded_two (show m / 60 < 100 by omega), padded_two (show m % 60 < 100 by omega)]
    simp only [List.cons_append, List.nil_append, isZone, hsign,
      pair?_of_lt (show m / 60 < 100 by omega), pair?_of_lt (show m % 60 < 100 by omega),
      Option.any_some, Bool.true_and, Bool.and_eq_true, decide_eq_true_eq]
    omega
  · obtain ⟨hour, minute, second, hhour, hminute, hsecond, rest, hiso⟩ :=
      iso_of_not_wholeMinutes hwhole
    rw [hiso, padded_two hhour, padded_two hminute, padded_two hsecond]
    refine iff_of_false ?_ fun h => hwhole h.1
    -- Seconds make the offset longer than any zone.
    by_cases hneg : o.microseconds < 0
    · rw [if_pos hneg]
      exact Bool.false_ne_true
    · rw [if_neg hneg]
      exact Bool.false_ne_true

/-- The form of a time inside an event is a lexical form when its offset is a zone. -/
theorem isDateTime_rfc3339 (t : DateTime) :
    isDateTime t.rfc3339 ↔ (t.offset.getD .utc).IsZone := by
  rw [rfc3339_eq, isDateTime_iso, isTime_iso t.time (endsTime_zone _), isZone_zone_iff]

end SchemaType

end Xml

end CloudEnvelope
