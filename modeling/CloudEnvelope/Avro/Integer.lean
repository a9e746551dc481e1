import CloudEnvelope.Failure

/-!
# Integers in Avro

An integer of 64 bits is folded so that small numbers of either sign become small
(`Integer.fold`: 0, -1, 1, -2, … become 0, 1, 2, 3, …) and is then written in groups of seven bits,
the lowest first, with a mark on every byte but the last.

`Integer.unfold_fold` says that folding loses nothing, and `Integer.length_lt_of_read` that reading
an integer takes at least one byte.
-/

namespace CloudEnvelope.Avro

/-- What reads a value from the start of some bytes and leaves the bytes after it. -/
abbrev Reader (α : Type) := StateT Bytes (Except Fault) α

namespace Integer

/-- The natural number of an integer. -/
def fold (n : Int) : Nat := if 0 ≤ n then (2 * n).toNat else (-2 * n - 1).toNat

/-- The integer of a natural number. -/
def unfold (n : Nat) : Int := if n % 2 = 0 then (n / 2 : Nat) else -((n / 2 + 1 : Nat) : Int)

theorem unfold_fold (n : Int) : unfold (fold n) = n := by
  unfold unfold fold
  split <;> split <;> omega

/-- The groups of a natural number; all but the last are marked. -/
def writeGroups (n : Nat) : Bytes :=
  if n < 0x80 then [n.toUInt8] else (n % 0x80 + 0x80).toUInt8 :: writeGroups (n / 0x80)
termination_by n

/-- An integer in its groups. -/
def write (n : Int) : Bytes := writeGroups (fold n)

/-- The groups up to the first one without a mark. -/
def readGroups : Reader (List Nat) := fun input => go input
where
  /-- The groups at the start of some bytes. -/
  go : Bytes → Except Fault (List Nat × Bytes)
    | [] => .error .indexOutOfRange
    | b :: rest =>
      if b.toNat < 0x80 then .ok ([b.toNat], rest)
      else
        match go rest with
        | .ok (groups, rest') => .ok ((b.toNat - 0x80) :: groups, rest')
        | .error f => .error f

/-- The number of 64 bits that has the groups, the first of them shifted. Groups beyond the word
come round to its low end. -/
def ofGroups : Nat → List Nat → Nat
  | _, [] => 0
  | shift, g :: rest => g <<< shift % Nat.pow 2 64 ||| ofGroups ((shift + 7) % 64) rest

/-- Reads an integer. Data may not end before it, and may not end inside it either. -/
def read : Reader Int := fun input =>
  match input with
  | [] => .error .endOfData
  | _ =>
    match readGroups input with
    | .ok (groups, rest) => .ok (unfold (ofGroups 0 groups), rest)
    | .error f => .error f

theorem length_lt_of_readGroups {input rest : Bytes} {groups : List Nat}
    (h : readGroups.go input = .ok (groups, rest)) : rest.length < input.length := by
  induction input generalizing groups rest with
  | nil => simp [readGroups.go] at h
  | cons b tail ih =>
    simp only [readGroups.go] at h
    split at h
    · simp only [Except.ok.injEq, Prod.mk.injEq] at h
      simp [← h.2]
    · split at h
      · rename_i groups' rest' hd
        simp only [Except.ok.injEq, Prod.mk.injEq] at h
        have := ih hd
        simp only [List.length_cons, ← h.2]
        omega
      · simp at h

theorem length_lt_of_read {input rest : Bytes} {n : Int} (h : read input = .ok (n, rest)) :
    rest.length < input.length := by
  unfold read at h
  split at h
  · simp at h
  · split at h
    · rename_i hd
      simp only [Except.ok.injEq, Prod.mk.injEq] at h
      rw [← h.2]
      exact length_lt_of_readGroups hd
    · simp at h

end Integer

end CloudEnvelope.Avro
