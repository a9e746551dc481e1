import CloudEnvelope.Text.Utf8

/-!
# Base64

`Base64.encode` writes bytes with the standard alphabet and padding. `Base64.decode?` reads
strictly: no foreign character, no data after padding and no missing padding. Two liberties remain:
the unused low bits of a last digit are not checked, and a text whose digits fill whole groups may
be followed by any number of padding marks, unless it consists of marks alone.
-/

namespace CloudEnvelope.Base64

/-- The digit of a number below 64. -/
def digit (n : Nat) : Char :=
  if n < 26 then Char.ofNat (65 + n)
  else if n < 52 then Char.ofNat (71 + n)
  else if n < 62 then Char.ofNat (n - 4)
  else if n = 62 then '+'
  else '/'

/-- The number that a digit stands for. -/
def value? (c : Char) : Option Nat :=
  let n := c.toNat
  if 65 ≤ n ∧ n ≤ 90 then some (n - 65)
  else if 97 ≤ n ∧ n ≤ 122 then some (n - 71)
  else if 48 ≤ n ∧ n ≤ 57 then some (n + 4)
  else if c = '+' then some 62
  else if c = '/' then some 63
  else none

/-- Three bytes become four digits; a last group of one or two bytes is filled with padding. -/
def encode : Bytes → List Char
  | [] => []
  | [a] => [digit (a.toNat / 4), digit (a.toNat % 4 * 16), '=', '=']
  | [a, b] =>
    [digit (a.toNat / 4), digit (a.toNat % 4 * 16 + b.toNat / 16), digit (b.toNat % 16 * 4), '=']
  | a :: b :: c :: rest =>
    digit (a.toNat / 4) :: digit (a.toNat % 4 * 16 + b.toNat / 16)
      :: digit (b.toNat % 16 * 4 + c.toNat / 64) :: digit (c.toNat % 64) :: encode rest

/-- The first byte of a group, from its first two digits. -/
def firstByte (a b : Nat) : UInt8 := (a * 4 + b / 16).toUInt8

/-- The second byte of a group, from its second and third digit. -/
def secondByte (b c : Nat) : UInt8 := (b % 16 * 16 + c / 4).toUInt8

/-- The third byte of a group, from its third and fourth digit. -/
def thirdByte (c d : Nat) : UInt8 := (c % 4 * 64 + d).toUInt8

/-- Reads whole groups, the last of which may be padded. -/
def decodeGroups? : List Char → Option Bytes
  | [] => some []
  | '=' :: rest => if rest.all (· == '=') then some [] else none
  | [a, b, '=', '='] => do
    let x ← value? a
    let y ← value? b
    some [firstByte x y]
  | [a, b, c, '='] => do
    let x ← value? a
    let y ← value? b
    let z ← value? c
    some [firstByte x y, secondByte y z]
  | a :: b :: c :: d :: rest => do
    let x ← value? a
    let y ← value? b
    let z ← value? c
    let w ← value? d
    let bytes ← decodeGroups? rest
    some (firstByte x y :: secondByte y z :: thirdByte z w :: bytes)
  | _ => none

/-- The bytes of a text in base64. -/
def decode? (cs : List Char) : Option Bytes :=
  if cs.head? = some '=' then none else decodeGroups? cs

/-- The bytes in base64, as a string. -/
def encodeString (bytes : Bytes) : String := String.ofList (encode bytes)

end CloudEnvelope.Base64
