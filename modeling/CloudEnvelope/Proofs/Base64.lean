import CloudEnvelope.Base64
import CloudEnvelope.Proofs.Text.Utf8

/-!
# Base64 loses nothing

`decode?_encode`: the strict reader takes what the writer writes and gives the bytes back.  The
digits are told apart by a table look-up in both directions (`value?_digit`), and the six-bit groups
of three bytes are put together again by arithmetic on their numbers.
-/

namespace CloudEnvelope.Base64

/-! ### Digits -/

theorem value?_digit {n : Nat} (h : n < 64) : value? (digit n) = some n := by
  have table : ∀ i : Fin 64, value? (digit i) = some i.val := by decide
  exact table ⟨n, h⟩

theorem digit_ne_padding {n : Nat} (h : n < 64) : digit n ≠ '=' := by
  have table : ∀ i : Fin 64, digit i ≠ '=' := by decide
  exact table ⟨n, h⟩

theorem digit_lt {n : Nat} (h : n < 64) : (digit n).toNat < 0x80 := by
  have table : ∀ i : Fin 64, (digit i).toNat < 0x80 := by decide
  exact table ⟨n, h⟩

/-! ### Groups -/

/-- The first byte of a group comes back from its two parts. -/
theorem firstByte_eq (a : UInt8) {n : Nat} (h : n < 16) :
    firstByte (a.toNat / 4) (a.toNat % 4 * 16 + n) = a :=
  Utf8.toUInt8_toNat (by have := a.toNat_lt; omega)

theorem secondByte_eq (b : UInt8) {m n : Nat} (h : n < 4) :
    secondByte (m * 16 + b.toNat / 16) (b.toNat % 16 * 4 + n) = b :=
  Utf8.toUInt8_toNat (by have := b.toNat_lt; omega)

theorem thirdByte_eq (c : UInt8) {m : Nat} :
    thirdByte (m * 4 + c.toNat / 64) (c.toNat % 64) = c :=
  Utf8.toUInt8_toNat (by have := c.toNat_lt; omega)

theorem decodeGroups?_encode (bytes : Bytes) : decodeGroups? (encode bytes) = some bytes := by
  fun_induction encode bytes with
  | case1 => rfl
  -- The reader's cases overlap at the padding, so each asks for digits that are no padding.
  | case2 a =>
    have ha := a.toNat_lt
    rw [decodeGroups?.eq_3 _ _ (digit_ne_padding (by omega)), value?_digit (by omega),
      value?_digit (by omega), ← Nat.add_zero (_ % 4 * 16)]
    exact congrArg (fun x => some [x]) (firstByte_eq a (by decide))
  | case3 a b =>
    have ha := a.toNat_lt
    have hb := b.toNat_lt
    rw [decodeGroups?.eq_4 _ _ _ (digit_ne_padding (by omega)) (digit_ne_padding (by omega)),
      value?_digit (by omega), value?_digit (by omega), value?_digit (by omega)]
    have hsecond := secondByte_eq b (m := a.toNat % 4) (n := 0) (by decide)
    simp only [Nat.add_zero] at hsecond
    simp only [Option.bind_eq_bind, Option.bind_some, hsecond,
      firstByte_eq a (show b.toNat / 16 < 16 by omega)]
  | case4 a b c rest ih =>
    have ha := a.toNat_lt
    have hb := b.toNat_lt
    have hc := c.toNat_lt
    rw [decodeGroups?.eq_5 _ _ _ _ _ (digit_ne_padding (by omega))
      (fun h => absurd h (digit_ne_padding (by omega)))
      (fun h => absurd h (digit_ne_padding (by omega))), value?_digit (by omega),
      value?_digit (by omega), value?_digit (by omega), value?_digit (by omega), ih]
    simp only [Option.bind_eq_bind, Option.bind_some, thirdByte_eq c,
      firstByte_eq a (show b.toNat / 16 < 16 by omega),
      secondByte_eq b (show c.toNat / 64 < 4 by omega)]

/-! ### Whole texts -/

theorem head?_encode_ne_padding (bytes : Bytes) : (encode bytes).head? ≠ some '=' := by
  have hne (a : UInt8) : digit (a.toNat / 4) ≠ '=' :=
    digit_ne_padding (by have := a.toNat_lt; omega)
  fun_cases encode bytes with
  | case1 => simp
  | case2 a => simpa using hne a
  | case3 a b => simpa using hne a
  | case4 a b c rest => simpa using hne a

/-- What is written is read back. -/
theorem decode?_encode (bytes : Bytes) : decode? (encode bytes) = some bytes := by
  unfold decode?
  rw [if_neg (head?_encode_ne_padding bytes), decodeGroups?_encode]

/-- Bytes are told apart by their written forms. -/
theorem encodeString_inj {a b : Bytes} : encodeString a = encodeString b ↔ a = b := by
  refine ⟨fun h => ?_, congrArg encodeString⟩
  have hdecode := congrArg (fun s => decode? s.toList) h
  simpa [encodeString, decode?_encode] using hdecode

/-- The written form consists of digits and padding. -/
theorem mem_encode {bytes : Bytes} {c : Char} (h : c ∈ encode bytes) :
    c = '=' ∨ ∃ n < 64, c = digit n := by
  fun_induction encode bytes with
  | case1 => cases h
  | case2 a =>
    have ha := a.toNat_lt
    simp only [List.mem_cons, List.not_mem_nil, or_false] at h
    rcases h with rfl | rfl | rfl | rfl
    · exact .inr ⟨_, by omega, rfl⟩
    · exact .inr ⟨_, by omega, rfl⟩
    · exact .inl rfl
    · exact .inl rfl
  | case3 a b =>
    have ha := a.toNat_lt
    have hb := b.toNat_lt
    simp only [List.mem_cons, List.not_mem_nil, or_false] at h
    rcases h with rfl | rfl | rfl | rfl
    · exact .inr ⟨_, by omega, rfl⟩
    · exact .inr ⟨_, by omega, rfl⟩
    · exact .inr ⟨_, by omega, rfl⟩
    · exact .inl rfl
  | case4 a b c rest ih =>
    have ha := a.toNat_lt
    have hb := b.toNat_lt
    have hc := c.toNat_lt
    simp only [List.mem_cons] at h
    rcases h with rfl | rfl | rfl | rfl | h
    · exact .inr ⟨_, by omega, rfl⟩
    · exact .inr ⟨_, by omega, rfl⟩
    · exact .inr ⟨_, by omega, rfl⟩
    · exact .inr ⟨_, by omega, rfl⟩
    · exact ih h

/-- The written form is ASCII. -/
theorem lt_of_mem_encode {bytes : Bytes} {c : Char} (h : c ∈ encode bytes) : c.toNat < 0x80 := by
  rcases mem_encode h with rfl | ⟨n, hn, rfl⟩
  · decide
  · exact digit_lt hn

end CloudEnvelope.Base64
