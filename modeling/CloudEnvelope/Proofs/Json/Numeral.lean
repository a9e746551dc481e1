import CloudEnvelope.Proofs.Json.Number

/-!
# The form of written numbers

A number in JSON is a whole part without leading zeros, perhaps a fraction and perhaps an exponent,
after a minus sign if it has one (`Json.IsNumeral`).  Integers are written in this form
(`Json.isNumeral_ofInt`), and so is every finite floating-point number (`Json.isNumeral_write`): its
shortest digits do not start with a zero, except for the zero itself, which is written positionally.

What is in this form is read as a number, the same whatever ends it (`Json.exists_atom?_numeral`).
-/

namespace CloudEnvelope

/-! ### Shortest digits -/

namespace Magnitude

/-- Below a magnitude other than zero the interval of what rounds to it ends before zero. -/
theorem interval_low_pos {x : Magnitude} (h : x.significand ≠ 0) : 0 < x.interval.low := by
  have hscale : 0 < (if 0 ≤ x.exponent - 2 then Nat.pow 2 (x.exponent - 2).toNat else 1) := by
    split
    · exact Nat.pow_pos (by decide)
    · exact Nat.one_pos
  have hbelow : (if x.significand = Nat.pow 2 52 ∧ x.exponent ≠ -1074 then 1 else 2) ≤ 2 := by
    split <;> decide
  exact Nat.mul_pos (by omega) hscale

theorem Interval.contains_zero {i : Interval} (h : 0 < i.low) (exponent : Int) :
    i.contains ⟨0, exponent⟩ = false := by
  have hscale : 0 < (if 0 ≤ exponent then 1 else Nat.pow 10 (-exponent).toNat) := by
    split
    · exact Nat.one_pos
    · exact Nat.pow_pos (by decide)
  have hlow : 0 < i.low * (if 0 ≤ exponent then 1 else Nat.pow 10 (-exponent).toNat) :=
    Nat.mul_pos h hscale
  unfold contains
  simp only [Nat.zero_mul]
  split
  · rw [decide_eq_false (Nat.not_le.mpr hlow), Bool.false_and]
  · rw [decide_eq_false (Nat.not_lt_zero _), Bool.false_and]

/-- A neighbour lies in the interval. -/
theorem Interval.contains_of_neighbour? {i : Interval} {exponent : Int} {d : Decimal}
    (h : i.neighbour? exponent = some d) : i.contains d := by
  unfold neighbour? at h
  dsimp only at h
  generalize (i.value * if 0 ≤ exponent then 1 else Nat.pow 10 (-exponent).toNat) = num at h
  generalize (i.den * if 0 ≤ exponent then Nat.pow 10 exponent.toNat else 1) = den at h
  split at h
  · rename_i hbelow habove
    cases h
    split
    · exact hbelow
    · exact habove
  · rename_i hbelow habove
    cases h
    exact hbelow
  · rename_i hbelow habove
    cases h
    exact habove
  · cases h

end Magnitude

theorem Decimal.digits_dropZeros {d : Decimal} (h : d.digits ≠ 0) (fuel : Nat) :
    (dropZeros fuel d).digits ≠ 0 := by
  induction fuel generalizing d with
  | zero => exact h
  | succ fuel ih =>
    rw [dropZeros]
    split
    · rename_i hzero
      rw [Bool.and_eq_true, decide_eq_true_eq] at hzero
      apply ih
      show d.digits / 10 ≠ 0
      omega
    · exact h

/-- The shortest decimal has digits other than zero, or is zero itself. -/
theorem Magnitude.digits_shortest (x : Magnitude) :
    x.shortest.digits ≠ 0 ∨ x.shortest = ⟨0, 0⟩ := by
  unfold shortest
  split
  · exact .inr rfl
  · rename_i hx
    dsimp only
    cases hsearch : x.interval.search _ with
    | none => exact .inr rfl
    | some d =>
      obtain ⟨exponent, -, hneighbour⟩ := List.exists_of_findSome?_eq_some hsearch
      refine .inl (Decimal.digits_dropZeros ?_ _)
      show d.digits ≠ 0
      intro hd
      have hcontains := Interval.contains_of_neighbour? hneighbour
      obtain ⟨digits, exponent'⟩ := d
      subst hd
      rw [Interval.contains_zero (interval_low_pos hx)] at hcontains
      cases hcontains

namespace Json

/-! ### Numerals -/

/-- At least one digit, and nothing else. -/
def IsDigits (ds : List Char) : Prop := ds ≠ [] ∧ ∀ d ∈ ds, d.isDigit

/-- A zero alone, or digits that do not start with a zero. -/
inductive IsWhole : List Char → Prop
  | zero : IsWhole ['0']
  | digits {d : Char} {ds : List Char} (hzero : d ≠ '0') (h : ∀ c ∈ d :: ds, c.isDigit) :
      IsWhole (d :: ds)

/-- Nothing, or digits after a point. -/
inductive IsFraction : List Char → Prop
  | none : IsFraction []
  | point {ds : List Char} (h : IsDigits ds) : IsFraction ('.' :: ds)

/-- Nothing, or digits after the letter of an exponent and perhaps a sign. -/
inductive IsExponent : List Char → Prop
  | none : IsExponent []
  | mark {c : Char} {sign ds : List Char} (hmark : c = 'e' ∨ c = 'E')
      (hsign : sign = [] ∨ sign = ['-'] ∨ sign = ['+']) (h : IsDigits ds) :
      IsExponent (c :: (sign ++ ds))

/-- The form of a number without a sign. -/
inductive IsUnsigned : List Char → Prop
  | parts {whole fraction exponent : List Char} (hwhole : IsWhole whole)
      (hfraction : IsFraction fraction) (hexponent : IsExponent exponent) :
      IsUnsigned (whole ++ (fraction ++ exponent))

/-- The form of a number. -/
inductive IsNumeral : List Char → Prop
  | positive {cs : List Char} (h : IsUnsigned cs) : IsNumeral cs
  | negative {cs : List Char} (h : IsUnsigned cs) : IsNumeral ('-' :: cs)

theorem isDigit_of_mem_whole {cs : List Char} (h : IsWhole cs) : ∀ c ∈ cs, c.isDigit := by
  cases h with
  | zero => simp
  | digits _ h => exact h

/-- The marks that stand among the digits of a number. -/
def numeralMarks : List Char := ['.', 'e', 'E', '+', '-']

theorem mem_unsigned {cs : List Char} (h : IsUnsigned cs) :
    ∀ c ∈ cs, c.isDigit ∨ c ∈ numeralMarks := by
  obtain ⟨hwhole, hfraction, hexponent⟩ := h
  intro c hc
  rw [List.mem_append, List.mem_append] at hc
  rcases hc with hc | hc | hc
  · exact .inl (isDigit_of_mem_whole hwhole c hc)
  · cases hfraction with
    | none => cases hc
    | point h =>
      rcases List.mem_cons.mp hc with rfl | hc
      · exact .inr (by decide)
      · exact .inl (h.2 c hc)
  · cases hexponent with
    | none => cases hc
    | mark hmark hsign h =>
      rcases List.mem_cons.mp hc with rfl | hc
      · rcases hmark with rfl | rfl <;> exact .inr (by decide)
      · rcases List.mem_append.mp hc with hc | hc
        · rcases hsign with rfl | rfl | rfl
          · cases hc
          · rw [List.mem_singleton.mp hc]
            exact .inr (by decide)
          · rw [List.mem_singleton.mp hc]
            exact .inr (by decide)
        · exact .inl (h.2 c hc)

theorem mem_numeral {cs : List Char} (h : IsNumeral cs) :
    ∀ c ∈ cs, c.isDigit ∨ c ∈ numeralMarks := by
  cases h with
  | positive h => exact mem_unsigned h
  | negative h => exact List.forall_mem_cons.mpr ⟨.inr (by decide), mem_unsigned h⟩

theorem IsWhole.isUnsigned {cs : List Char} (h : IsWhole cs) : IsUnsigned cs := by
  have hparts := IsUnsigned.parts h .none .none
  rwa [List.append_nil, List.append_nil] at hparts

theorem IsWhole.append {d : Char} {ds more : List Char} (hzero : d ≠ '0')
    (h : ∀ c ∈ d :: ds, c.isDigit) (hmore : ∀ c ∈ more, c.isDigit) :
    IsWhole (d :: ds ++ more) := by
  rw [List.cons_append]
  refine .digits hzero fun c hc => ?_
  rw [← List.cons_append, List.mem_append] at hc
  exact hc.elim (h c) (hmore c)

theorem isDigits_toDigits (n : Nat) : IsDigits (Nat.toDigits 10 n) :=
  ⟨Nat.toDigits_ne_nil, fun _ => isDigit_of_mem_toDigits⟩

theorem IsDigits.zeros_append {ds : List Char} (h : IsDigits ds) (n : Nat) :
    IsDigits (List.replicate n '0' ++ ds) := by
  refine ⟨List.append_ne_nil_of_right_ne_nil _ h.1, fun c hc => ?_⟩
  rcases List.mem_append.mp hc with hc | hc
  · rw [List.eq_of_mem_replicate hc]
    rfl
  · exact h.2 c hc

theorem isWhole_toDigits (n : Nat) : IsWhole (Nat.toDigits 10 n) := by
  by_cases hn : n = 0
  · subst hn
    exact .zero
  · obtain ⟨d, ds, hd, -⟩ := exists_toDigits n
    rw [hd]
    refine .digits ?_ fun c hc => isDigit_of_mem_toDigits (n := n) (hd ▸ hc)
    rintro rfl
    exact toDigits_ne_zero_cons hn ds hd

/-- Integers are written in the form of numbers. -/
theorem isNumeral_ofInt (n : Int) : IsNumeral (Text.ofInt n).chars := by
  cases n with
  | ofNat n =>
    rw [Text.ofInt, Text.ofNat, Text.chars_ofChars]
    exact .positive (isWhole_toDigits n).isUnsigned
  | negSucc n =>
    rw [Text.ofInt, Text.ofNat, Text.chars_cons, Text.chars_ofChars]
    exact .negative (isWhole_toDigits (n + 1)).isUnsigned

/-! ### Decimals -/

/-- The digits of a number, followed by zeros, are a whole part, unless they are a zero and others
follow. -/
theorem isWhole_toDigits_zeros {n k : Nat} (h : n ≠ 0 ∨ k = 0) :
    IsWhole (Nat.toDigits 10 n ++ List.replicate k '0') := by
  by_cases hk : k = 0
  · subst hk
    rw [List.replicate_zero, List.append_nil]
    exact isWhole_toDigits n
  · have hn := h.resolve_right hk
    obtain ⟨d, ds, hd, -⟩ := exists_toDigits n
    rw [hd]
    refine .append ?_ (fun c hc => isDigit_of_mem_toDigits (n := n) (hd ▸ hc)) fun c hc => ?_
    · rintro rfl
      exact toDigits_ne_zero_cons hn ds hd
    · rw [List.eq_of_mem_replicate hc]
      rfl

/-- Digits with a point are an unsigned number, unless they are a zero and others follow. -/
theorem isUnsigned_positional {n : Nat} {order : Int} (h : n ≠ 0 ∨ order = 0) :
    IsUnsigned (Decimal.positional (Nat.toDigits 10 n) order) := by
  have hdigits := isDigits_toDigits n
  unfold Decimal.positional
  split
  · have hfraction : IsFraction ('.' :: (List.replicate (-order - 1).toNat '0'
        ++ Nat.toDigits 10 n)) := .point (hdigits.zeros_append _)
    have hparts := IsUnsigned.parts .zero hfraction .none
    rwa [List.append_nil] at hparts
  · have hlength : 0 < (Nat.toDigits 10 n).length := List.length_pos_iff.mpr hdigits.1
    dsimp only
    split
    · have hwhole : IsWhole (Nat.toDigits 10 n ++ List.replicate
          (order.toNat + 1 - (Nat.toDigits 10 n).length) '0') := by
        apply isWhole_toDigits_zeros
        rcases h with hn | rfl
        · exact .inl hn
        · right
          show 0 + 1 - (Nat.toDigits 10 n).length = 0
          omega
      have hfraction : IsFraction ['.', '0'] := .point ⟨List.cons_ne_nil _ _, by simp⟩
      exact .parts hwhole hfraction .none
    · rename_i hlong
      -- The digits are two or more, so they do not start with a zero.
      have hn : n ≠ 0 := by
        rintro rfl
        rw [Nat.toDigits_zero, List.length_singleton] at hlong
        omega
      obtain ⟨d, ds, hd, -⟩ := exists_toDigits n
      have hwhole : IsWhole ((Nat.toDigits 10 n).take (order.toNat + 1)) := by
        rw [hd, List.take_succ_cons]
        refine .digits ?_ fun c hc => isDigit_of_mem_toDigits (n := n) ?_
        · rintro rfl
          exact toDigits_ne_zero_cons hn ds hd
        · rw [hd]
          rw [← List.take_succ_cons] at hc
          exact List.mem_of_mem_take hc
      have hfraction : IsDigits ((Nat.toDigits 10 n).drop (order.toNat + 1)) := by
        refine ⟨?_, fun c hc => hdigits.2 c (List.mem_of_mem_drop hc)⟩
        rw [ne_eq, List.drop_eq_nil_iff]
        exact hlong
      have hparts := IsUnsigned.parts hwhole (.point hfraction) .none
      rwa [List.append_nil] at hparts

/-- One digit before the point and an exponent are an unsigned number, whatever the digit is. -/
theorem isUnsigned_scientific (n exponentDigits : Nat) (order : Int) :
    IsUnsigned (Decimal.scientific exponentDigits (Nat.toDigits 10 n) order) := by
  have hexponent : IsExponent ('e' :: (if order < 0 then '-' else '+') ::
      (List.replicate (exponentDigits - (Nat.toDigits 10 order.natAbs).length) '0'
        ++ Nat.toDigits 10 order.natAbs)) := by
    have hdigits := (isDigits_toDigits order.natAbs).zeros_append
      (exponentDigits - (Nat.toDigits 10 order.natAbs).length)
    split
    · exact .mark (.inl rfl) (.inr (.inl rfl)) hdigits
    · exact .mark (.inl rfl) (.inr (.inr rfl)) hdigits
  have hdigit : ∀ c : Char, c.isDigit → IsWhole [c] := by
    intro c hc
    by_cases hzero : c = '0'
    · rw [hzero]
      exact .zero
    · exact .digits hzero (by simpa using hc)
  have hall := fun c => isDigit_of_mem_toDigits (n := n) (c := c)
  unfold Decimal.scientific
  obtain ⟨d, ds, hd, hdig⟩ := exists_toDigits n
  rw [hd] at hall ⊢
  dsimp only
  rw [List.append_assoc]
  cases ds with
  | nil =>
    have hparts := IsUnsigned.parts (hdigit d hdig) .none hexponent
    exact hparts
  | cons c ds =>
    have hdigits : IsDigits (c :: ds) :=
      ⟨List.cons_ne_nil c ds, fun x hx => hall x (List.mem_cons_of_mem d hx)⟩
    have hparts := IsUnsigned.parts (hdigit d hdig) (.point hdigits) hexponent
    exact hparts

/-- Every finite number is written in the form of numbers. -/
theorem isNumeral_write (negative : Bool) (x : Magnitude) :
    IsNumeral ((Binary64.finite negative x).write .json).chars := by
  have hunsigned : IsUnsigned (x.shortest.write .json).chars := by
    rw [Decimal.write, Text.chars_ofChars]
    split
    · apply isUnsigned_positional
      rcases x.digits_shortest with hdigits | hzero
      · exact .inl hdigits
      · rw [hzero]
        exact .inr rfl
    · exact isUnsigned_scientific _ _ _
  rw [Binary64.write, Text.chars_append]
  cases negative with
  | false => exact .positive hunsigned
  | true => exact .negative hunsigned

/-! ### Reading numerals -/

theorem IsDigits.takeWhile_append {ds rest : List Char} (h : IsDigits ds) (hrest : NoDigit rest) :
    (ds ++ rest).takeWhile Char.isDigit = ds ∧ (ds ++ rest).dropWhile Char.isDigit = rest :=
  ⟨takeWhile_isDigit_append h.2 hrest, dropWhile_isDigit_append h.2 hrest⟩

theorem wholePart?_append {whole rest : List Char} (h : IsWhole whole) (hrest : NoDigit rest) :
    wholePart? (whole ++ rest) = some (whole, rest) := by
  cases h with
  | zero => rfl
  | @digits d ds hzero h =>
    have htake := takeWhile_isDigit_append h hrest
    have hdrop := dropWhile_isDigit_append h hrest
    rw [wholePart?]
    · simp only [htake, hdrop, List.isEmpty_cons, Bool.false_eq_true, if_false]
    · intro rest' heq
      exact hzero (List.cons.inj heq).1

/-- Neither a digit nor a point stands at the start. -/
def NoFraction (cs : List Char) : Prop := NoDigit cs ∧ ∀ c ∈ cs.head?, c ≠ '.'

/-- A fraction is read up to what does not go on with it. -/
theorem exists_fractionPart {cs : List Char} (h : IsFraction cs) :
    ∃ ds, ∀ rest, NoFraction rest → fractionPart (cs ++ rest) = (ds, rest) := by
  cases h with
  | none =>
    refine ⟨[], fun rest hrest => ?_⟩
    show fractionPart rest = ([], rest)
    unfold fractionPart
    split
    · exact absurd rfl (hrest.2 '.' rfl)
    · rfl
  | @point ds h =>
    refine ⟨ds, fun rest hrest => ?_⟩
    obtain ⟨htake, hdrop⟩ := h.takeWhile_append hrest.1
    rw [List.cons_append, fractionPart]
    simp only [htake, hdrop]
    rw [if_neg (by simpa using h.1)]

/-- An exponent is read up to what ends a number. -/
theorem exists_exponentPart {cs : List Char} (h : IsExponent cs) :
    ∃ exponent, ∀ rest, Ends rest → exponentPart (cs ++ rest) = (exponent, rest) := by
  cases h with
  | none => exact ⟨none, fun rest hrest => exponentPart_of_ends hrest⟩
  | @mark c sign ds hmark hsign h =>
    have hletter : (c == 'e' || c == 'E') = true := by
      rcases hmark with rfl | rfl <;> rfl
    have hne : ¬ds.isEmpty = true := by simpa using h.1
    rcases hsign with rfl | rfl | rfl
    · refine ⟨some (Nat.ofDigitChars 10 ds 0 : Int), fun rest hrest => ?_⟩
      obtain ⟨htake, hdrop⟩ := h.takeWhile_append hrest.noDigit
      -- Without a sign the first digit stands where one would be looked for.
      have hsign : ∀ sign, sign.isDigit = false → ∀ more, ds ++ rest ≠ sign :: more := by
        intro sign hsign more heq
        obtain ⟨d, ds, rfl⟩ := List.exists_cons_of_ne_nil h.1
        have hd := h.2 d List.mem_cons_self
        rw [(List.cons.inj heq).1, hsign] at hd
        cases hd
      show exponentPart (c :: (ds ++ rest)) = _
      rw [exponentPart]
      · simp only [hletter, if_true, htake, hdrop, if_neg hne, Bool.false_eq_true, if_false]
      · exact fun more => hsign '-' rfl more
      · exact fun more => hsign '+' rfl more
    · refine ⟨some (-(Nat.ofDigitChars 10 ds 0 : Int)), fun rest hrest => ?_⟩
      obtain ⟨htake, hdrop⟩ := h.takeWhile_append hrest.noDigit
      show exponentPart (c :: '-' :: (ds ++ rest)) = _
      simp only [exponentPart, hletter, if_true, htake, hdrop, if_neg hne]
    · refine ⟨some (Nat.ofDigitChars 10 ds 0 : Int), fun rest hrest => ?_⟩
      obtain ⟨htake, hdrop⟩ := h.takeWhile_append hrest.noDigit
      show exponentPart (c :: '+' :: (ds ++ rest)) = _
      simp only [exponentPart, hletter, if_true, htake, hdrop, if_neg hne, Bool.false_eq_true,
        if_false]

/-- What follows a fraction does not go on with it. -/
theorem IsExponent.noFraction_append {cs rest : List Char} (h : IsExponent cs)
    (hrest : Ends rest) : NoFraction (cs ++ rest) := by
  cases h with
  | none =>
    refine ⟨hrest.noDigit, fun c hc => ?_⟩
    rcases hrest c hc with rfl | rfl | rfl <;> decide
  | mark hmark _ _ =>
    constructor
    · rintro c ⟨⟩
      rcases hmark with rfl | rfl <;> rfl
    · rintro c ⟨⟩
      rcases hmark with rfl | rfl <;> decide

/-- What follows a whole part does not go on with it. -/
theorem IsFraction.noDigit_append {cs rest : List Char} (h : IsFraction cs)
    (hrest : NoFraction rest) : NoDigit (cs ++ rest) := by
  cases h with
  | none => exact hrest.1
  | point _ =>
    rintro c ⟨⟩
    rfl

/-- A number without a sign starts with a digit. -/
theorem IsUnsigned.exists_cons {cs : List Char} (h : IsUnsigned cs) :
    ∃ d ds, cs = d :: ds ∧ d.isDigit := by
  obtain ⟨hwhole, -, -⟩ := h
  cases hwhole with
  | zero => exact ⟨'0', _, rfl, rfl⟩
  | digits _ h => exact ⟨_, _, rfl, h _ List.mem_cons_self⟩

/-- The value of a number in parts: an integer, unless it has a fraction or an exponent. -/
def ofParts (negative : Bool) (whole fraction : List Char) (exponent : Option Int) : Json :=
  if fraction.isEmpty && exponent.isNone then
    int (if negative then -(Nat.ofDigitChars 10 whole 0 : Int) else Nat.ofDigitChars 10 whole 0)
  else
    float (.ofDecimal negative (Nat.ofDigitChars 10 (whole ++ fraction) 0)
      (exponent.getD 0 - fraction.length))

/-- The parts of a number are read one after the other, so what they denote does not depend on what
ends the number. -/
theorem exists_number? {cs : List Char} (h : IsUnsigned cs) :
    ∃ whole fraction exponent, ∀ rest, Ends rest →
      number? (cs ++ rest) = some (ofParts false whole fraction exponent, rest) ∧
        number? ('-' :: (cs ++ rest)) = some (ofParts true whole fraction exponent, rest) := by
  obtain ⟨d, ds, hstart, hd⟩ := h.exists_cons
  obtain ⟨hwhole, hfraction, hexponent⟩ := h
  rename_i whole fraction exponent
  obtain ⟨digits, hdigits⟩ := exists_fractionPart hfraction
  obtain ⟨power, hpower⟩ := exists_exponentPart hexponent
  refine ⟨whole, digits, power, fun rest hrest => ?_⟩
  have hafter := hexponent.noFraction_append hrest
  have hread : wholePart? (whole ++ (fraction ++ exponent) ++ rest)
      = some (whole, fraction ++ (exponent ++ rest)) := by
    rw [List.append_assoc, List.append_assoc]
    exact wholePart?_append hwhole (hfraction.noDigit_append hafter)
  have hminus : ∀ more, whole ++ (fraction ++ exponent) ++ rest ≠ '-' :: more := by
    intro more heq
    rw [hstart, List.cons_append] at heq
    rw [(List.cons.inj heq).1] at hd
    cases hd
  have hvalue : ∀ negative, (if digits.isEmpty && power.isNone then
      some (int (if negative then -(Nat.ofDigitChars 10 whole 0 : Int)
        else Nat.ofDigitChars 10 whole 0), rest)
    else
      some (float (.ofDecimal negative (Nat.ofDigitChars 10 (whole ++ digits) 0)
        (power.getD 0 - digits.length)),
        rest)) = some (ofParts negative whole digits power, rest) := by
    intro negative
    rw [ofParts]
    split <;> rfl
  constructor
  · rw [number?]
    · simp only [hread, hdigits _ hafter, hpower rest hrest, Option.bind_eq_bind, Option.bind_some]
      exact hvalue false
    · exact hminus
  · simp only [number?, hread, hdigits _ hafter, hpower rest hrest, Option.bind_eq_bind,
      Option.bind_some]
    exact hvalue true

/-- A numeral is read up to what ends it. -/
theorem exists_atom?_numeral {cs : List Char} (h : IsNumeral cs) :
    ∃ j, ∀ rest, Ends rest → atom? (cs ++ rest) = some (j, rest) := by
  cases h with
  | positive h =>
    obtain ⟨d, ds, rfl, hd⟩ := h.exists_cons
    obtain ⟨whole, fraction, exponent, hread⟩ := exists_number? h
    refine ⟨ofParts false whole fraction exponent, fun rest hrest => ?_⟩
    rw [List.cons_append, atom?_digit hd]
    exact (hread rest hrest).1
  | @negative cs h =>
    obtain ⟨d, ds, rfl, hd⟩ := h.exists_cons
    obtain ⟨whole, fraction, exponent, hread⟩ := exists_number? h
    refine ⟨ofParts true whole fraction exponent, fun rest hrest => ?_⟩
    rw [List.cons_append, List.cons_append, atom?_minus_digit hd]
    exact (hread rest hrest).2

/-- Every floating-point number is read up to what ends it, be it a numeral or a word. -/
theorem exists_atom?_float (x : Binary64) :
    ∃ j, ∀ rest, Ends rest → atom? ((x.write .json).chars ++ rest) = some (j, rest) := by
  cases x with
  | finite negative magnitude => exact exists_atom?_numeral (isNumeral_write negative magnitude)
  | infinite negative =>
    cases negative with
    | false => exact ⟨float (.infinite false), fun rest _ => rfl⟩
    | true => exact ⟨float (.infinite true), fun rest _ => rfl⟩
  | nan => exact ⟨float .nan, fun rest _ => rfl⟩

/-- A numeral starts with a digit or a minus sign. -/
theorem IsNumeral.exists_cons {cs : List Char} (h : IsNumeral cs) :
    ∃ c ds, cs = c :: ds ∧ (c.isDigit ∨ c = '-') := by
  cases h with
  | positive h =>
    obtain ⟨d, ds, rfl, hd⟩ := h.exists_cons
    exact ⟨d, ds, rfl, .inl hd⟩
  | negative h => exact ⟨'-', _, rfl, .inr rfl⟩

/-- A floating-point number starts with a digit, a minus sign or the letter of a word. -/
theorem exists_writeFloat (x : Binary64) :
    ∃ c cs, (x.write .json).chars = c :: cs ∧ (c.isDigit ∨ c ∈ ['-', 'N', 'I']) := by
  cases x with
  | finite negative magnitude =>
    obtain ⟨c, cs, hcs, hdigit | rfl⟩ := (isNumeral_write negative magnitude).exists_cons
    · exact ⟨c, cs, hcs, .inl hdigit⟩
    · exact ⟨'-', cs, hcs, .inr (by decide)⟩
  | infinite negative =>
    cases negative with
    | false => exact ⟨'I', _, rfl, .inr (by decide)⟩
    | true => exact ⟨'-', _, rfl, .inr (by decide)⟩
  | nan => exact ⟨'N', _, rfl, .inr (by decide)⟩

/-- No other token starts as a floating-point number does. -/
theorem ne_of_startsFloat {c d : Char} (h : c.isDigit ∨ c ∈ ['-', 'N', 'I'])
    (hdigit : d.isDigit = false) (hmark : d ∉ ['-', 'N', 'I']) : c ≠ d := by
  rintro rfl
  rcases h with h | h
  · rw [h] at hdigit
    cases hdigit
  · exact hmark h

end Json

end CloudEnvelope
