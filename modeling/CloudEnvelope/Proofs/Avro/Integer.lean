import CloudEnvelope.Avro.Integer
import CloudEnvelope.Number.Word
import Mathlib.Algebra.Group.Int.Defs
import Mathlib.Algebra.Group.Nat.Defs
import Mathlib.Tactic.Common

/-!
# Integers in Avro read back

`Integer.reads_write`: an integer of 64 bits is read back from its groups, whatever follows them.
The groups of a number are its digits to the base 128 (`Integer.groups`), and putting them together
in a word of 64 bits loses none of them as long as the number fits the word
(`Integer.ofGroups_groups`).
-/

namespace CloudEnvelope

theorem Word.holds_iff {n : Int} : Word.holds 64 n ↔ -2 ^ 63 ≤ n ∧ n < 2 ^ 63 := by
  simp only [Word.holds, Bool.and_eq_true, decide_eq_true_eq]
  exact Iff.rfl

namespace Avro

/-- The reader takes a value from its bytes, whatever follows them. -/
def Reads {α : Type} (r : Reader α) (bytes : Bytes) (a : α) : Prop :=
  ∀ rest, r (bytes ++ rest) = .ok (a, rest)

namespace Reads

variable {α β : Type}

theorem pure (a : α) : Reads (Pure.pure a) [] a := fun _ => rfl

/-- One reader after another reads the bytes of both. -/
theorem bind {r : Reader α} {f : α → Reader β} {as bs : Bytes} {a : α} {b : β}
    (hr : Reads r as a) (hf : Reads (f a) bs b) : Reads (r >>= f) (as ++ bs) b := by
  intro rest
  show (r (as ++ bs ++ rest) >>= fun p => f p.1 p.2) = _
  rw [List.append_assoc, hr]
  exact hf rest

/-- What is made of the value that is read needs no bytes of its own. -/
theorem bind_pure {r : Reader α} {f : α → Reader β} {bs : Bytes} {a : α} {b : β}
    (hr : Reads r bs a) (hf : f a = Pure.pure b) : Reads (r >>= f) bs b := by
  have h := bind hr (hf ▸ pure b)
  rwa [List.append_nil] at h

end Reads

namespace Integer

/-- The digits to the base 128 of a number, the lowest first. -/
def groups (n : Nat) : List Nat := if n < 0x80 then [n] else n % 0x80 :: groups (n / 0x80)
termination_by n

/-- The groups that are written are the groups up to the first byte without a mark. -/
theorem go_writeGroups (n : Nat) (rest : Bytes) :
    readGroups.go (writeGroups n ++ rest) = .ok (groups n, rest) := by
  induction n using Nat.strongRecOn with
  | _ n ih =>
    rw [writeGroups, groups]
    by_cases hn : n < 0x80
    · have hbyte : n.toUInt8.toNat = n := by
        show n % 256 = n
        omega
      simp only [if_pos hn, List.cons_append, List.nil_append, readGroups.go, hbyte]
    · have hbyte : (n % 0x80 + 0x80).toUInt8.toNat = n % 0x80 + 0x80 := by
        show (n % 0x80 + 0x80) % 256 = _
        omega
      have hmark : ¬n % 0x80 + 0x80 < 0x80 := by omega
      simp only [if_neg hn, List.cons_append, readGroups.go, hbyte, if_neg hmark,
        ih (n / 0x80) (by omega), Nat.add_sub_cancel]

/-- Two runs of bits that do not meet make their sum. -/
theorem or_shift {low high s : Nat} (h : low < 0x80) :
    low * 2 ^ s ||| high * 2 ^ (s + 7) = (low + 0x80 * high) * 2 ^ s := by
  have hlow : low * 2 ^ s < 2 ^ (s + 7) := by
    rw [Nat.pow_add, Nat.mul_comm (2 ^ s)]
    exact (Nat.mul_lt_mul_right (Nat.two_pow_pos s)).mpr h
  rw [Nat.or_comm, Nat.mul_comm high, ← Nat.two_pow_add_eq_or_of_lt hlow, Nat.pow_add,
    Nat.add_mul, Nat.add_comm, Nat.mul_comm (2 ^ s), Nat.mul_assoc, Nat.mul_comm (2 ^ s),
    ← Nat.mul_assoc]

/-- The digits of a number that stays inside the word when it is shifted make the shifted number. -/
theorem ofGroups_groups {n s : Nat} (h : n * 2 ^ s < 2 ^ 64) :
    ofGroups s (groups n) = n * 2 ^ s := by
  induction n using Nat.strongRecOn generalizing s with
  | _ n ih =>
    rw [groups]
    by_cases hn : n < 0x80
    · rw [if_pos hn, ofGroups, ofGroups, Nat.or_zero, Nat.shiftLeft_eq]
      exact Nat.mod_eq_of_lt h
    · -- A digit follows, so the next shift is still inside the word and does not come round.
      have hshift : s + 7 < 64 := by
        refine (Nat.pow_lt_pow_iff_right (by decide : 1 < 2)).mp (Nat.lt_of_le_of_lt ?_ h)
        rw [Nat.pow_add, Nat.mul_comm]
        exact Nat.mul_le_mul_right _ (Nat.le_of_not_lt hn)
      have hsplit : n % 0x80 + 0x80 * (n / 0x80) = n := Nat.mod_add_div n 0x80
      have hlow : (n % 0x80) * 2 ^ s < 2 ^ 64 :=
        Nat.lt_of_le_of_lt (Nat.mul_le_mul_right _ (Nat.mod_le n 0x80)) h
      have hhigh : n / 0x80 * 2 ^ (s + 7) ≤ n * 2 ^ s := by
        rw [Nat.pow_add, Nat.mul_comm (2 ^ s), ← Nat.mul_assoc]
        exact Nat.mul_le_mul_right _ (Nat.div_mul_le_self n 0x80)
      rw [if_neg hn, ofGroups, Nat.mod_eq_of_lt hshift,
        ih _ (by omega) (Nat.lt_of_le_of_lt hhigh h), Nat.shiftLeft_eq,
        show Nat.pow 2 64 = 2 ^ 64 from rfl, Nat.mod_eq_of_lt hlow,
        or_shift (Nat.mod_lt n (by decide)), hsplit]

theorem write_ne_nil (n : Int) : write n ≠ [] := by
  rw [write, writeGroups]
  split <;> exact List.cons_ne_nil _ _

/-- An integer of 64 bits is folded into 64 bits. -/
theorem fold_lt {n : Int} (h : Word.holds 64 n) : fold n < 2 ^ 64 := by
  rw [Word.holds_iff] at h
  unfold fold
  split <;> omega

/-- An integer of 64 bits is read back from its groups. -/
theorem reads_write {n : Int} (h : Word.holds 64 n) : Reads read (write n) n := by
  intro rest
  have hgo : readGroups (write n ++ rest) = .ok (groups (fold n), rest) := go_writeGroups _ rest
  unfold read
  split
  · rename_i hnil
    exact absurd (List.append_eq_nil_iff.mp hnil).1 (write_ne_nil n)
  · rw [hgo]
    have hgroups := ofGroups_groups (n := fold n) (s := 0) (by simpa using fold_lt h)
    rw [Nat.pow_zero, Nat.mul_one] at hgroups
    simp only [hgroups, unfold_fold]

/-- A length is read back when it fits 63 bits. -/
theorem reads_write_natCast {n : Nat} (h : n < 2 ^ 63) : Reads read (write n) n :=
  reads_write (Word.holds_iff.mpr (by omega))

end Integer

end Avro

end CloudEnvelope
