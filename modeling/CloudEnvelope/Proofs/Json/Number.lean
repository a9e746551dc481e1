import CloudEnvelope.Json.Printer
import CloudEnvelope.Json.Reader
import CloudEnvelope.Proofs.Text.Digits
import CloudEnvelope.Proofs.Text.Scalar

/-!
# JSON integers read back

`Json.atom?_ofInt`: an integer is read back from its digits when what follows cannot go on with a
number (`Json.Ends`).  The digits of a number do not start with a zero unless they are a zero alone
(`Json.wholePart?_toDigits`), and so no leading zero cuts them short.
-/

namespace CloudEnvelope.Json

/-- What can follow a value inside another: nothing, a comma or a closing bracket. -/
def Ends (cs : List Char) : Prop := ∀ c ∈ cs.head?, c = ',' ∨ c = ']' ∨ c = '\x7d'

theorem Ends.noDigit {cs : List Char} (h : Ends cs) : NoDigit cs := by
  intro c hc
  rcases h c hc with rfl | rfl | rfl <;> rfl

/-! ### Whole part -/

theorem isDigit_of_mem_toDigits {n : Nat} {c : Char} (h : c ∈ Nat.toDigits 10 n) : c.isDigit :=
  Nat.isDigit_of_mem_toDigits (by decide) (by decide) h

/-- The digits of a number start with a digit. -/
theorem exists_toDigits (n : Nat) : ∃ d ds, Nat.toDigits 10 n = d :: ds ∧ d.isDigit := by
  cases h : Nat.toDigits 10 n with
  | nil => exact absurd h Nat.toDigits_ne_nil
  | cons d ds =>
    have hmem : d ∈ Nat.toDigits 10 n := by
      rw [h]
      exact List.mem_cons_self ..
    exact ⟨d, ds, rfl, isDigit_of_mem_toDigits hmem⟩

/-- The digits of a number that is not zero do not start with a zero. -/
theorem toDigits_ne_zero_cons {n : Nat} (h : n ≠ 0) (ds : List Char) :
    Nat.toDigits 10 n ≠ '0' :: ds := by
  induction n using Nat.strongRecOn generalizing ds with
  | _ n ih =>
    by_cases hn : n < 10
    · rw [Nat.toDigits_of_lt_base hn]
      intro heq
      have hdigit : 48 + n = 48 := by
        rw [← Nat.toNat_digitChar_of_lt_ten hn, (List.cons.inj heq).1]
        rfl
      omega
    · rw [Nat.toDigits_of_base_le (by decide) (Nat.le_of_not_lt hn)]
      obtain ⟨d, ds', hd, -⟩ := exists_toDigits (n / 10)
      intro heq
      rw [hd, List.cons_append] at heq
      refine ih (n / 10) (by omega) (by omega) ds' ?_
      rw [hd, (List.cons.inj heq).1]

theorem wholePart?_toDigits (n : Nat) {rest : List Char} (h : NoDigit rest) :
    wholePart? (Nat.toDigits 10 n ++ rest) = some (Nat.toDigits 10 n, rest) := by
  by_cases hn : n = 0
  · subst hn
    rfl
  · obtain ⟨d, ds, hd, -⟩ := exists_toDigits n
    -- A leading zero would end the whole part at once.
    have hzero : d ≠ '0' := by
      rintro rfl
      exact toDigits_ne_zero_cons hn ds hd
    have htake := takeWhile_isDigit_append (fun c hc => isDigit_of_mem_toDigits (n := n) hc) h
    have hdrop := dropWhile_isDigit_append (fun c hc => isDigit_of_mem_toDigits (n := n) hc) h
    rw [hd] at htake hdrop ⊢
    rw [List.cons_append] at htake hdrop ⊢
    rw [wholePart?]
    · simp only [htake, hdrop, List.isEmpty_cons, Bool.false_eq_true, if_false]
    · intro rest' heq
      exact hzero (List.cons.inj heq).1

/-! ### Integers -/

theorem fractionPart_of_ends {cs : List Char} (h : Ends cs) : fractionPart cs = ([], cs) := by
  cases cs with
  | nil => rfl
  | cons c cs =>
    have hpoint : c ≠ '.' := by
      rintro rfl
      have := h _ rfl
      simp at this
    rw [fractionPart]
    rintro rest heq
    exact hpoint (List.cons.inj heq).1

theorem exponentPart_of_ends {cs : List Char} (h : Ends cs) : exponentPart cs = (none, cs) := by
  cases cs with
  | nil => rfl
  | cons c cs =>
    have hmark : ¬(c == 'e' || c == 'E') := by
      rcases h c rfl with rfl | rfl | rfl <;> decide
    exact if_neg hmark

/-- The digits of a number are read up to what ends it. -/
theorem number?_toDigits (n : Nat) {rest : List Char} (h : Ends rest) :
    number? (Nat.toDigits 10 n ++ rest) = some (int n, rest) := by
  obtain ⟨d, ds, hd, hdigit⟩ := exists_toDigits n
  have hminus : d ≠ '-' := by
    rintro rfl
    cases hdigit
  have hsign : ∀ cs, Nat.toDigits 10 n ++ rest ≠ '-' :: cs := by
    intro cs heq
    rw [hd, List.cons_append] at heq
    exact hminus (List.cons.inj heq).1
  rw [number?]
  · simp only [wholePart?_toDigits n h.noDigit, Option.bind_eq_bind, Option.bind_some,
      fractionPart_of_ends h, exponentPart_of_ends h, Nat.ofDigitChars_ten_toDigits]
    rfl
  · exact hsign

theorem number?_neg (n : Nat) {rest : List Char} (h : Ends rest) :
    number? ('-' :: (Nat.toDigits 10 n ++ rest)) = some (int (-n), rest) := by
  simp only [number?, wholePart?_toDigits n h.noDigit, Option.bind_eq_bind, Option.bind_some,
    fractionPart_of_ends h, exponentPart_of_ends h, Nat.ofDigitChars_ten_toDigits]
  rfl

/-! ### Atoms -/

/-- What does not start as a word does is a number. -/
theorem atom?_eq_number? {cs : List Char} (h : ∀ word ∈ words, ¬word.1.isPrefixOf cs) :
    atom? cs = number? cs := by
  rw [atom?, List.findSome?_eq_none_iff.mpr]
  rintro ⟨word, j⟩ hmem
  have hafter : after? word cs = none := if_neg (h _ hmem)
  simp only [hafter, Option.map_none]

theorem atom?_digit {d : Char} (hd : d.isDigit) (cs : List Char) :
    atom? (d :: cs) = number? (d :: cs) := by
  refine atom?_eq_number? ?_
  simp only [words, String.reduceToList, List.forall_mem_cons, List.isPrefixOf_iff_prefix,
    List.cons_prefix_cons, not_and]
  refine ⟨?_, ?_, ?_, ?_, ?_, ?_, fun _ hmem => absurd hmem List.not_mem_nil⟩ <;>
  · rintro rfl
    cases hd

theorem atom?_minus_digit {d : Char} (hd : d.isDigit) (cs : List Char) :
    atom? ('-' :: d :: cs) = number? ('-' :: d :: cs) := by
  refine atom?_eq_number? ?_
  -- Only `-Infinity` among the words starts with a minus sign.
  have hinfinity : 'I' ≠ d := by
    rintro rfl
    cases hd
  simp [words, hinfinity]

/-- An integer is read back when what follows ends it. -/
theorem atom?_ofInt (n : Int) {rest : List Char} (h : Ends rest) :
    atom? ((Text.ofInt n).chars ++ rest) = some (int n, rest) := by
  cases n with
  | ofNat n =>
    obtain ⟨d, ds, hd, hdigit⟩ := exists_toDigits n
    have hread := number?_toDigits n h
    rw [Text.ofInt, Text.ofNat, Text.chars_ofChars]
    rw [hd, List.cons_append] at hread ⊢
    rw [atom?_digit hdigit, hread]
    rfl
  | negSucc n =>
    obtain ⟨d, ds, hd, hdigit⟩ := exists_toDigits (n + 1)
    have hread := number?_neg (n + 1) h
    rw [Text.ofInt, Text.ofNat, Text.chars_cons, Text.chars_ofChars, List.cons_append]
    rw [hd, List.cons_append] at hread ⊢
    rw [atom?_minus_digit hdigit, hread]
    rfl

/-- Integers are told apart by their digits. -/
theorem ofInt_inj {m n : Int} : Text.ofInt m = Text.ofInt n ↔ m = n := by
  refine ⟨fun h => ?_, congrArg Text.ofInt⟩
  have hends : Ends [] := fun c hc => by cases hc
  have hread := atom?_ofInt m hends
  rw [h, atom?_ofInt n hends] at hread
  injection hread with hread
  injection hread with hread
  injection hread with hread
  exact hread.symm

/-- An integer starts with a digit or a minus sign. -/
theorem exists_ofInt (n : Int) :
    ∃ c cs, (Text.ofInt n).chars = c :: cs ∧ (c.isDigit ∨ c = '-') := by
  cases n with
  | ofNat n =>
    obtain ⟨d, ds, hd, hdigit⟩ := exists_toDigits n
    exact ⟨d, ds, by rw [Text.ofInt, Text.ofNat, Text.chars_ofChars, hd], .inl hdigit⟩
  | negSucc n => exact ⟨'-', _, rfl, .inr rfl⟩

/-- No other token starts as an integer does. -/
theorem ne_of_startsInteger {c d : Char} (h : c.isDigit ∨ c = '-') (hdigit : d.isDigit = false)
    (hminus : d ≠ '-') : c ≠ d := by
  rintro rfl
  rcases h with h | h
  · rw [h] at hdigit
    cases hdigit
  · exact hminus h

end CloudEnvelope.Json
