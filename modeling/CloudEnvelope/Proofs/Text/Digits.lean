import CloudEnvelope.Calendar.Iso
import CloudEnvelope.Calendar.TimeReader
import CloudEnvelope.Json.Reader
import Mathlib.Algebra.Group.Nat.Defs
import Mathlib.Tactic.Common

/-!
# Decimal digits

Readers find a run of digits by `takeWhile` and `dropWhile`; a run that was written is found again
when no digit follows it (`takeWhile_isDigit_append`, `dropWhile_isDigit_append`).  Digits filled
with zeros come one by one (`filled_add_two`) and spell the same number
(`Calendar.ofDigitChars_padded`).  How many digits a number has is told by a power of ten
(`Text.canSpell_iff`).
-/

namespace CloudEnvelope

/-! ### Runs of digits -/

/-- No digit stands at the start. -/
def NoDigit (cs : List Char) : Prop := ∀ c ∈ cs.head?, c.isDigit = false

theorem takeWhile_isDigit_append {ds rest : List Char} (hd : ∀ c ∈ ds, c.isDigit)
    (hr : NoDigit rest) : (ds ++ rest).takeWhile Char.isDigit = ds := by
  rw [List.takeWhile_append_of_pos hd]
  cases rest with
  | nil => simp
  | cons c rest => simp [hr c rfl]

theorem dropWhile_isDigit_append {ds rest : List Char} (hd : ∀ c ∈ ds, c.isDigit)
    (hr : NoDigit rest) : (ds ++ rest).dropWhile Char.isDigit = rest := by
  rw [List.dropWhile_append_of_pos hd]
  cases rest with
  | nil => rfl
  | cons c rest => simp [hr c rfl]

/-- An integer can be written when it lies below a one with as many zeros as digits are allowed. -/
theorem Text.canSpell_iff {n : Int} : canSpell n ↔ n.natAbs < 10 ^ digitLimit := by
  rw [canSpell, decide_eq_true_eq]
  exact Nat.length_toDigits_le_iff (by decide) (by decide)

theorem Text.canSpell_pow_iff (k : Nat) :
    canSpell (Int.ofNat (Nat.pow 10 k)) ↔ k < digitLimit := by
  have hpow (limit : Nat) : (Int.ofNat (Nat.pow 10 k)).natAbs < 10 ^ limit ↔ k < limit :=
    Nat.pow_lt_pow_iff_right (by decide)
  exact canSpell_iff.trans (hpow digitLimit)

/-! ### Digits filled with zeros -/

/-- The digits of a number to a base, filled with zeros to a width. -/
def filled (base width n : Nat) : List Char :=
  List.replicate (width - (Nat.toDigits base n).length) '0' ++ Nat.toDigits base n

theorem filled_one {b n : Nat} (h : n < b) : filled b 1 n = [n.digitChar] := by
  simp [filled, Nat.toDigits_of_lt_base h]

/-- The last digit of a number comes after the digits of its part before it. -/
theorem filled_add_two {b : Nat} (hb : 1 < b) (w n : Nat) :
    filled b (w + 2) n = filled b (w + 1) (n / b) ++ [(n % b).digitChar] := by
  simp only [filled]
  by_cases hn : n < b
  · rw [Nat.div_eq_of_lt hn, Nat.mod_eq_of_lt hn, Nat.toDigits_of_lt_base hn, Nat.toDigits_zero]
    simp [List.replicate_succ']
  · rw [Nat.toDigits_of_base_le hb (Nat.le_of_not_lt hn), List.length_append,
      List.length_singleton, show w + 2 = w + 1 + 1 from rfl, Nat.add_sub_add_right,
      List.append_assoc]

theorem filled_two {b n : Nat} (hb : 1 < b) (h : n < b * b) :
    filled b 2 n = [(n / b).digitChar, (n % b).digitChar] := by
  rw [filled_add_two hb, filled_one (Nat.div_lt_of_lt_mul h)]
  rfl

theorem filled_four {b n : Nat} (hb : 1 < b) (h : n < b * b * (b * b)) :
    filled b 4 n = [(n / b / b / b).digitChar, (n / b / b % b).digitChar, (n / b % b).digitChar,
      (n % b).digitChar] := by
  have hpair : n / b / b < b * b := by
    rw [Nat.div_div_eq_div_mul]
    exact Nat.div_lt_of_lt_mul h
  rw [filled_add_two hb, filled_add_two hb, filled_two hb hpair]
  rfl

namespace Calendar

theorem padded_two {n : Nat} (h : n < 100) :
    padded 2 n = [(n / 10).digitChar, (n % 10).digitChar] :=
  filled_two (by decide) h

theorem padded_four {n : Nat} (h : n < 10000) :
    padded 4 n = [(n / 1000).digitChar, (n / 100 % 10).digitChar, (n / 10 % 10).digitChar,
      (n % 10).digitChar] := by
  have hthousands : n / 10 / 10 / 10 = n / 1000 := by omega
  have hhundreds : n / 10 / 10 = n / 100 := by omega
  rw [← hthousands, ← hhundreds]
  exact filled_four (by decide) h

theorem isDigit_of_mem_padded {w n : Nat} {c : Char} (h : c ∈ padded w n) : c.isDigit := by
  rcases List.mem_append.mp h with h | h
  · rw [List.eq_of_mem_replicate h]
    rfl
  · exact Nat.isDigit_of_mem_toDigits (by decide) (by decide) h

theorem length_padded {w n : Nat} (hw : 0 < w) (h : n < 10 ^ w) : (padded w n).length = w := by
  have := (Nat.length_toDigits_le_iff (by decide : 1 < 10) hw).mpr h
  simp only [padded, List.length_append, List.length_replicate]
  omega

theorem ofDigitChars_padded (w n : Nat) : Nat.ofDigitChars 10 (padded w n) 0 = n := by
  rw [padded, Nat.ofDigitChars_append, Nat.ofDigitChars_replicate_zero, Nat.mul_zero,
    Nat.ofDigitChars_ten_toDigits]

end Calendar

namespace TimeReader

open Calendar

theorem pair?_digitChar {m n : Nat} (hm : m < 10) (hn : n < 10) :
    pair? m.digitChar n.digitChar = some (10 * m + n) := by
  simp [pair?, Nat.isDigit_digitChar, hm, hn, Nat.toNat_digitChar_of_lt_ten]

/-- The two digits of a number below 100 spell it. -/
theorem pair?_of_lt {n : Nat} (h : n < 100) :
    pair? (n / 10).digitChar (n % 10).digitChar = some n := by
  rw [pair?_digitChar (by omega) (by omega), Nat.div_add_mod]

end TimeReader

end CloudEnvelope
