import CloudEnvelope.Proofs.Avro.Readers
import CloudEnvelope.Proofs.Avro.Record
import Mathlib.Data.List.Infix
import Mathlib.Tactic.Common

/-!
# Records end where they end

`Record.steady_read`: a record that has been taken from some bytes is the same whatever follows them
(`Steady`).  A reader takes the same when the readers that it is made of do, and the blocks of a map
are the same by induction on them.

So bytes that are read to their end cannot be cut short: no part of them at their start is read
(`Steady.exists_error_of_prefix`).
-/

namespace CloudEnvelope.Avro

/-- What the reader takes from some bytes does not depend on what follows them. -/
def Steady {α : Type} (r : Reader α) : Prop :=
  ∀ ⦃input a rest⦄, r input = .ok (a, rest) → ∀ more, r (input ++ more) = .ok (a, rest ++ more)

/-- Bytes that are read to their end are not read when the end is missing. -/
theorem Steady.exists_error_of_prefix {α : Type} {r : Reader α} (hr : Steady r)
    {bytes part : Bytes} {a : α} (h : r bytes = .ok (a, [])) (hstart : part <+: bytes)
    (hne : part ≠ bytes) : ∃ fault, r part = .error fault := by
  obtain ⟨missing, rfl⟩ := hstart
  cases hpart : r part with
  | error fault => exact ⟨fault, rfl⟩
  | ok p =>
    -- What is missing would be left over by the whole.
    obtain ⟨b, rest⟩ := p
    have hwhole := hr hpart missing
    rw [h] at hwhole
    injection hwhole with hwhole
    injection hwhole with _ hrest
    obtain ⟨-, rfl⟩ := List.append_eq_nil_iff.mp hrest.symm
    exact absurd (List.append_nil part).symm hne

/-! ### The readers of a record -/

theorem go_append {input rest : Bytes} {groups : List Nat}
    (h : Integer.readGroups.go input = .ok (groups, rest)) (more : Bytes) :
    Integer.readGroups.go (input ++ more) = .ok (groups, rest ++ more) := by
  induction input generalizing groups rest with
  | nil => cases h
  | cons b tail ih =>
    rw [Integer.readGroups.go] at h
    rw [List.cons_append, Integer.readGroups.go]
    split at h
    · rename_i hlast
      cases h
      rw [if_pos hlast]
    · rename_i hmarked
      rw [if_neg hmarked]
      split at h
      · rename_i hgo
        cases h
        rw [ih hgo]
      · cases h

theorem steady_integer : Steady Integer.read := by
  intro input n rest h more
  unfold Integer.read at h ⊢
  split at h
  · cases h
  · rename_i hne
    split at h
    · rename_i groups rest' hgroups
      cases h
      have hmore : Integer.readGroups (input ++ more) = .ok (groups, rest ++ more) :=
        go_append hgroups more
      split
      · rename_i hnil
        exact absurd (List.append_eq_nil_iff.mp hnil).1 hne
      · rw [hmore]
    · cases h

theorem steady_readContent (size : Int) : Steady (readContent size) := by
  intro input content rest h more
  unfold readContent at h ⊢
  split at h
  · rename_i hsize
    cases h
    have hlong : 0 ≤ size ∧ size ≤ (input ++ more).length := by
      rw [List.length_append]
      omega
    have htake : size.toNat ≤ input.length := by omega
    rw [if_pos hlong, List.take_append_of_le_length htake, List.drop_append_of_le_length htake]
  · cases h

/-- The blocks of a map are the same whatever follows them. -/
theorem steady_readBlocks (hblock : ∀ count, Steady (readBlock count)) : Steady readBlocks := by
  intro input entries rest h more
  fun_induction readBlocks input generalizing entries rest with
  | case1 => cases h
  | case2 input rest' hcount =>
    cases h
    exact readBlocks_end (steady_integer hcount more)
  | case3 => cases h
  | case4 => cases h
  | case5 input count rest' hcount hne block rest'' hrest hlt others final hothers ih =>
    cases h
    exact readBlocks_block (steady_integer hcount more) hne (hblock count hrest more)
      (ih hothers)

theorem inherited_steady : Inherited @Steady where
  pure _ := by
    rintro input b rest ⟨⟩ more
    rfl
  throw _ := by
    intro input a rest h
    cases h
  bind {α β r f} hr hf := by
    intro input b rest h more
    change (r input >>= fun p => f p.1 p.2) = .ok (b, rest) at h
    obtain ⟨⟨a, middle⟩, ha, hb⟩ := Except.bind_eq_ok_iff.mp h
    show (r (input ++ more) >>= fun p => f p.1 p.2) = _
    rw [hr ha more]
    exact hf a hb more
  integer := steady_integer
  content := steady_readContent
  blocks := steady_readBlocks

/-- A record is the same whatever follows it. -/
theorem Record.steady_read : Steady Record.read := inherited_steady.record

end CloudEnvelope.Avro
