import CloudEnvelope.Proofs.Text.Scalar
import Mathlib.Tactic.Common

/-!
# UTF-8 loses nothing

`decode?_encode`: what `Utf8.encode` writes is read back.  `encode_of_decode?`: bytes that can be
read are the bytes of what is read, because no overlong form is accepted.  Together, the well-formed
sequences of bytes are in bijection with the sequences of scalar values (`decode?_eq_some_iff`).
-/

namespace CloudEnvelope.Utf8

/-! ### Bytes and scalar values by their numbers -/

theorem toNat_toUInt8 {n : Nat} (h : n < 0x100) : n.toUInt8.toNat = n := by
  simp [Nat.mod_eq_of_lt h]

theorem toUInt8_toNat {n : Nat} {b : UInt8} (h : n = b.toNat) : n.toUInt8 = b := by
  subst h
  exact UInt8.ofNat_toNat

theorem toNat_ofNat {n : Nat} (h : n.isValidChar) : (Char.ofNat n).toNat = n := by
  rw [Char.ofNat, dif_pos h]
  rfl

theorem continuation?_add {x : Nat} (h : x < 0x40) : continuation? (0x80 + x).toUInt8 = some x := by
  unfold continuation?
  rw [toNat_toUInt8 (by omega), if_pos (by omega), Nat.add_sub_cancel_left]

theorem continuation?_eq_some {b : UInt8} {x : Nat} (h : continuation? b = some x) :
    x < 0x40 ∧ b.toNat = 0x80 + x := by
  unfold continuation? at h
  split_ifs at h with hb
  obtain rfl := Option.some.inj h
  omega

theorem scalarAtLeast?_toNat {c : Char} {least n : Nat} (hn : n = c.toNat) (h : least ≤ n) :
    scalarAtLeast? least n = some c := by
  subst hn
  unfold scalarAtLeast?
  rw [if_pos ⟨h, c.valid⟩, Char.ofNat_toNat]

theorem scalarAtLeast?_eq_some {c : Char} {least n : Nat} (h : scalarAtLeast? least n = some c) :
    least ≤ n ∧ c.toNat = n := by
  unfold scalarAtLeast? at h
  split_ifs at h with hn
  obtain rfl := Option.some.inj h
  exact ⟨hn.1, toNat_ofNat hn.2⟩

/-! ### Reading what was written -/

theorem decode?_one {b : UInt8} (h : b.toNat < 0x80) (rest : Bytes) :
    decode? (b :: rest) = (decode? rest).map (Char.ofNat b.toNat :: ·) := by
  rw [decode?.eq_def]
  dsimp only
  rw [if_pos h]

theorem decode?_two {b b₁ : UInt8} {x₁ : Nat} {c : Char} (hlo : 0xC0 ≤ b.toNat)
    (hhi : b.toNat < 0xE0) (h₁ : continuation? b₁ = some x₁)
    (hc : scalarAtLeast? 0x80 ((b.toNat - 0xC0) * 0x40 + x₁) = some c) (rest : Bytes) :
    decode? (b :: b₁ :: rest) = (decode? rest).map (c :: ·) := by
  rw [decode?.eq_def]
  dsimp only
  rw [if_neg (by omega), if_neg (by omega), if_pos hhi, h₁, Option.bind_eq_bind, Option.bind_some,
    hc, Option.bind_eq_bind, Option.bind_some]

theorem decode?_three {b b₁ b₂ : UInt8} {x₁ x₂ : Nat} {c : Char} (hlo : 0xE0 ≤ b.toNat)
    (hhi : b.toNat < 0xF0) (h₁ : continuation? b₁ = some x₁) (h₂ : continuation? b₂ = some x₂)
    (hc : scalarAtLeast? 0x800 ((b.toNat - 0xE0) * 0x1000 + x₁ * 0x40 + x₂) = some c)
    (rest : Bytes) :
    decode? (b :: b₁ :: b₂ :: rest) = (decode? rest).map (c :: ·) := by
  rw [decode?.eq_def]
  dsimp only
  rw [if_neg (by omega), if_neg (by omega), if_neg (by omega), if_pos hhi, h₁, Option.bind_eq_bind,
    Option.bind_some, h₂, Option.bind_eq_bind, Option.bind_some, hc, Option.bind_some]

theorem decode?_four {b b₁ b₂ b₃ : UInt8} {x₁ x₂ x₃ : Nat} {c : Char} (hlo : 0xF0 ≤ b.toNat)
    (hhi : b.toNat < 0xF8) (h₁ : continuation? b₁ = some x₁) (h₂ : continuation? b₂ = some x₂)
    (h₃ : continuation? b₃ = some x₃)
    (hc : scalarAtLeast? 0x10000
      ((b.toNat - 0xF0) * 0x40000 + x₁ * 0x1000 + x₂ * 0x40 + x₃) = some c) (rest : Bytes) :
    decode? (b :: b₁ :: b₂ :: b₃ :: rest) = (decode? rest).map (c :: ·) := by
  rw [decode?.eq_def]
  dsimp only
  rw [if_neg (by omega), if_neg (by omega), if_neg (by omega), if_neg (by omega), if_pos hhi, h₁,
    Option.bind_eq_bind, Option.bind_some, h₂, Option.bind_eq_bind, Option.bind_some, h₃,
    Option.bind_some, hc, Option.bind_some]

theorem decode?_encodeChar_append (c : Char) (rest : Bytes) :
    decode? (encodeChar c ++ rest) = (decode? rest).map (c :: ·) := by
  have hlt : c.toNat < 0x110000 := by
    have := c.valid
    simp only [UInt32.isValidChar, Nat.isValidChar, Char.toNat_val] at this
    omega
  have low (n : Nat) : continuation? (0x80 + n % 0x40).toUInt8 = some (n % 0x40) :=
    continuation?_add (Nat.mod_lt _ (by decide))
  simp only [encodeChar]
  split_ifs with h1 h2 h3 <;> simp only [List.cons_append, List.nil_append]
  · have hb := toNat_toUInt8 (n := c.toNat) (by omega)
    rw [decode?_one (by omega), hb, Char.ofNat_toNat]
  · have hb := toNat_toUInt8 (n := 0xC0 + c.toNat / 0x40) (by omega)
    exact decode?_two (by omega) (by omega) (low _) (scalarAtLeast?_toNat (by omega) (by omega)) _
  · have hb := toNat_toUInt8 (n := 0xE0 + c.toNat / 0x1000) (by omega)
    exact decode?_three (by omega) (by omega) (low _) (low _)
      (scalarAtLeast?_toNat (by omega) (by omega)) _
  · have hb := toNat_toUInt8 (n := 0xF0 + c.toNat / 0x40000) (by omega)
    exact decode?_four (by omega) (by omega) (low _) (low _) (low _)
      (scalarAtLeast?_toNat (by omega) (by omega)) _

theorem encode_cons (c : Char) (cs : List Char) : encode (c :: cs) = encodeChar c ++ encode cs :=
  List.flatMap_cons

/-- What is written is read back, and then what follows is read. -/
theorem decode?_encode_append (cs : List Char) (more : Bytes) :
    decode? (encode cs ++ more) = (decode? more).map (cs ++ ·) := by
  induction cs with
  | nil => simp [encode]
  | cons c cs ih =>
    rw [encode_cons, List.append_assoc, decode?_encodeChar_append, ih, Option.map_map]
    rfl

/-- What is written is read back. -/
theorem decode?_encode (cs : List Char) : decode? (encode cs) = some cs := by
  have h := decode?_encode_append cs []
  rwa [List.append_nil, decode?, Option.map_some, List.append_nil] at h

/-! ### Writing what was read -/

theorem encodeChar_eq_two {c : Char} {a b : UInt8} {x : Nat} (ha : 0xC0 ≤ a.toNat)
    (hb : b.toNat = 0x80 + x) (hx : x < 0x40) (hc : c.toNat = (a.toNat - 0xC0) * 0x40 + x)
    (hlo : 0x80 ≤ c.toNat) (hhi : c.toNat < 0x800) : encodeChar c = [a, b] := by
  simp only [encodeChar]
  rw [if_neg (by omega), if_pos hhi, toUInt8_toNat (b := a) (by omega),
    toUInt8_toNat (b := b) (by omega)]

theorem encodeChar_eq_three {c : Char} {a b₁ b₂ : UInt8} {x₁ x₂ : Nat} (ha : 0xE0 ≤ a.toNat)
    (h₁ : b₁.toNat = 0x80 + x₁) (hx₁ : x₁ < 0x40) (h₂ : b₂.toNat = 0x80 + x₂) (hx₂ : x₂ < 0x40)
    (hc : c.toNat = (a.toNat - 0xE0) * 0x1000 + x₁ * 0x40 + x₂)
    (hlo : 0x800 ≤ c.toNat) (hhi : c.toNat < 0x10000) : encodeChar c = [a, b₁, b₂] := by
  simp only [encodeChar]
  rw [if_neg (by omega), if_neg (by omega), if_pos hhi, toUInt8_toNat (b := a) (by omega),
    toUInt8_toNat (b := b₁) (by omega), toUInt8_toNat (b := b₂) (by omega)]

theorem encodeChar_eq_four {c : Char} {a b₁ b₂ b₃ : UInt8} {x₁ x₂ x₃ : Nat} (ha : 0xF0 ≤ a.toNat)
    (h₁ : b₁.toNat = 0x80 + x₁) (hx₁ : x₁ < 0x40) (h₂ : b₂.toNat = 0x80 + x₂) (hx₂ : x₂ < 0x40)
    (h₃ : b₃.toNat = 0x80 + x₃) (hx₃ : x₃ < 0x40)
    (hc : c.toNat = (a.toNat - 0xF0) * 0x40000 + x₁ * 0x1000 + x₂ * 0x40 + x₃)
    (hlo : 0x10000 ≤ c.toNat) : encodeChar c = [a, b₁, b₂, b₃] := by
  simp only [encodeChar]
  rw [if_neg (by omega), if_neg (by omega), if_neg (by omega), toUInt8_toNat (b := a) (by omega),
    toUInt8_toNat (b := b₁) (by omega), toUInt8_toNat (b := b₂) (by omega),
    toUInt8_toNat (b := b₃) (by omega)]

/-- Bytes that can be read are the bytes of what is read. -/
theorem encode_of_decode? {bytes : Bytes} {cs : List Char} (h : decode? bytes = some cs) :
    encode cs = bytes := by
  -- Only the four leads that start a scalar value leave something to show.
  fun_induction decode? bytes generalizing cs with
  | case1 =>
    obtain rfl := Option.some.inj h
    rfl
  | case2 =>
    rename_i b rest lead hb ih
    obtain ⟨ds, hds, rfl⟩ := Option.map_eq_some_iff.mp h
    have hc : (Char.ofNat b.toNat).toNat = b.toNat := toNat_ofNat (Or.inl (by omega))
    have hchar : encodeChar (Char.ofNat b.toNat) = [b] := by
      simp only [encodeChar, hc]
      rw [if_pos (by omega), toUInt8_toNat rfl]
    rw [encode_cons, ih hds, hchar, List.singleton_append]
  | case4 =>
    rename_i b lead h80 hC0 hE0 b₁ rest ih
    simp only [Option.bind_eq_bind, Option.bind_eq_some_iff, Option.map_eq_some_iff] at h
    obtain ⟨x₁, hx₁, c, hc, ds, hds, rfl⟩ := h
    obtain ⟨hlt₁, hb₁⟩ := continuation?_eq_some hx₁
    obtain ⟨hle, hc⟩ := scalarAtLeast?_eq_some hc
    rw [encode_cons, ih hds,
      encodeChar_eq_two (a := b) (by omega) hb₁ hlt₁ hc (by omega) (by omega)]
    rfl
  | case6 =>
    rename_i b lead h80 hC0 hE0 hF0 b₁ b₂ rest ih
    simp only [Option.bind_eq_bind, Option.bind_eq_some_iff, Option.map_eq_some_iff] at h
    obtain ⟨x₁, hx₁, x₂, hx₂, c, hc, ds, hds, rfl⟩ := h
    obtain ⟨hlt₁, hb₁⟩ := continuation?_eq_some hx₁
    obtain ⟨hlt₂, hb₂⟩ := continuation?_eq_some hx₂
    obtain ⟨hle, hc⟩ := scalarAtLeast?_eq_some hc
    rw [encode_cons, ih hds,
      encodeChar_eq_three (a := b) (by omega) hb₁ hlt₁ hb₂ hlt₂ hc (by omega) (by omega)]
    rfl
  | case8 =>
    rename_i b lead h80 hC0 hE0 hF0 hF8 b₁ b₂ b₃ rest ih
    simp only [Option.bind_eq_bind, Option.bind_eq_some_iff, Option.map_eq_some_iff] at h
    obtain ⟨x₁, hx₁, x₂, hx₂, x₃, hx₃, c, hc, ds, hds, rfl⟩ := h
    obtain ⟨hlt₁, hb₁⟩ := continuation?_eq_some hx₁
    obtain ⟨hlt₂, hb₂⟩ := continuation?_eq_some hx₂
    obtain ⟨hlt₃, hb₃⟩ := continuation?_eq_some hx₃
    obtain ⟨hle, hc⟩ := scalarAtLeast?_eq_some hc
    rw [encode_cons, ih hds,
      encodeChar_eq_four (a := b) (by omega) hb₁ hlt₁ hb₂ hlt₂ hb₃ hlt₃ hc (by omega)]
    rfl
  | case3 | case5 | case7 | case9 | case10 => simp at h

/-- Bytes at the start of what is written can be read only if they end where a character does. -/
theorem prefix_of_decode? {part : Bytes} {cs ds : List Char} (hpart : decode? part = some ds)
    (hstart : part <+: encode cs) : ds <+: cs := by
  obtain ⟨missing, hmissing⟩ := hstart
  have hwhole := decode?_encode cs
  rw [← hmissing, ← encode_of_decode? hpart, decode?_encode_append] at hwhole
  obtain ⟨es, -, rfl⟩ := Option.map_eq_some_iff.mp hwhole
  exact List.prefix_append ds es

/-- The well-formed sequences of bytes are the written ones. -/
theorem decode?_eq_some_iff {bytes : Bytes} {cs : List Char} :
    decode? bytes = some cs ↔ bytes = encode cs :=
  ⟨fun h => (encode_of_decode? h).symm, fun h => h ▸ decode?_encode cs⟩

end CloudEnvelope.Utf8
