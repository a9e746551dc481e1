import CloudEnvelope.Text.Basic

/-!
# UTF-8

`Utf8.encode` writes scalar values as bytes and `Utf8.decode?` reads them back strictly: no
overlong form, no surrogate, nothing past U+10FFFF. A text has a UTF-8 form exactly when it holds
no lone surrogate (`Text.utf8?`).
-/

namespace CloudEnvelope

/-- A sequence of bytes. -/
abbrev Bytes := List UInt8

namespace Utf8

/-- The one to four bytes of a scalar value. -/
def encodeChar (c : Char) : Bytes :=
  let n := c.toNat
  if n < 0x80 then [n.toUInt8]
  else if n < 0x800 then [(0xC0 + n / 0x40).toUInt8, (0x80 + n % 0x40).toUInt8]
  else if n < 0x10000 then
    [(0xE0 + n / 0x1000).toUInt8, (0x80 + n / 0x40 % 0x40).toUInt8, (0x80 + n % 0x40).toUInt8]
  else
    [(0xF0 + n / 0x40000).toUInt8, (0x80 + n / 0x1000 % 0x40).toUInt8,
      (0x80 + n / 0x40 % 0x40).toUInt8, (0x80 + n % 0x40).toUInt8]

/-- The bytes of a sequence of scalar values. -/
def encode (cs : List Char) : Bytes := cs.flatMap encodeChar

/-- The six payload bits of a continuation byte. -/
def continuation? (b : UInt8) : Option Nat :=
  if 0x80 ≤ b.toNat ∧ b.toNat < 0xC0 then some (b.toNat - 0x80) else none

/-- The scalar value of `n`, unless a shorter form exists for it (`n < least`). -/
def scalarAtLeast? (least n : Nat) : Option Char :=
  if least ≤ n ∧ n.isValidChar then some (Char.ofNat n) else none

/-- The scalar values of a well-formed sequence of bytes. -/
def decode? : Bytes → Option (List Char)
  | [] => some []
  | b :: rest =>
    let lead := b.toNat
    if lead < 0x80 then (decode? rest).map (Char.ofNat lead :: ·)
    else if lead < 0xC0 then none
    else if lead < 0xE0 then
      match rest with
      | b₁ :: rest => do
        let x₁ ← continuation? b₁
        let c ← scalarAtLeast? 0x80 ((lead - 0xC0) * 0x40 + x₁)
        (decode? rest).map (c :: ·)
      | _ => none
    else if lead < 0xF0 then
      match rest with
      | b₁ :: b₂ :: rest => do
        let x₁ ← continuation? b₁
        let x₂ ← continuation? b₂
        let c ← scalarAtLeast? 0x800 ((lead - 0xE0) * 0x1000 + x₁ * 0x40 + x₂)
        (decode? rest).map (c :: ·)
      | _ => none
    else if lead < 0xF8 then
      match rest with
      | b₁ :: b₂ :: b₃ :: rest => do
        let x₁ ← continuation? b₁
        let x₂ ← continuation? b₂
        let x₃ ← continuation? b₃
        let c ← scalarAtLeast? 0x10000
          ((lead - 0xF0) * 0x40000 + x₁ * 0x1000 + x₂ * 0x40 + x₃)
        (decode? rest).map (c :: ·)
      | _ => none
    else none

/-- The bytes of a string. -/
def ofString (s : String) : Bytes := encode s.toList

/-- The string of a well-formed sequence of bytes. -/
def toString? (bytes : Bytes) : Option String := (decode? bytes).map String.ofList

end Utf8

namespace Text

/-- The UTF-8 form of a text without lone surrogates. -/
def utf8? (t : Text) : Option Bytes := t.scalars?.map Utf8.encode

end Text

end CloudEnvelope
