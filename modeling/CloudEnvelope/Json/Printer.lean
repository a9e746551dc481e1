import CloudEnvelope.Json.Basic
import CloudEnvelope.Number.Layout

/-!
# Writing JSON

`Json.write` prints a value without blanks. `Json.Charset` chooses whether code points outside
printable ASCII stand for themselves or are escaped in UTF-16 units.
-/

namespace CloudEnvelope

/-- Numbers in JSON: positional from 10 ^ -4 to below 10 ^ 16. -/
def NumberLayout.json : NumberLayout where
  nan := "NaN"
  infinity := "Infinity"

namespace Json

/-- Which code points are escaped beyond those that must be. -/
inductive Charset where
  /-- Every code point from U+0020 on stands for itself. -/
  | unicode
  /-- Only printable ASCII stands for itself. -/
  | ascii
deriving DecidableEq, Repr

/-- A UTF-16 unit as an escape. -/
def escapeUnit (n : Nat) : Text :=
  let digits := Nat.toDigits 16 n
  Text.ofChars ('\\' :: 'u' :: List.replicate (4 - digits.length) '0' ++ digits)

/-- A code point as one escape, or as two for the halves of its surrogate pair. -/
def escapePoint (n : Nat) : Text :=
  if n < 0x10000 then escapeUnit n
  else escapeUnit (0xD800 + (n - 0x10000) / 0x400) ++ escapeUnit (0xDC00 + (n - 0x10000) % 0x400)

/-- The escapes that have a letter of their own. -/
def shortEscape? (n : Nat) : Option Text :=
  if n = 0x22 then some "\\\""
  else if n = 0x5C then some "\\\\"
  else if n = 0x0A then some "\\n"
  else if n = 0x0D then some "\\r"
  else if n = 0x09 then some "\\t"
  else if n = 0x08 then some "\\b"
  else if n = 0x0C then some "\\f"
  else none

/-- A code point inside a string. -/
def writePoint (charset : Charset) (c : CodePoint) : Text :=
  let n := c.toNat
  match shortEscape? n with
  | some t => t
  | none =>
    if n < 0x20 || (charset == .ascii && 0x7E < n) then escapePoint n else [c]

/-- A text as a string. -/
def writeString (charset : Charset) (t : Text) : Text :=
  .scalar '"' :: t.flatMap (writePoint charset) ++ [.scalar '"']

mutual

/-- A value without blanks. -/
def write (charset : Charset) : Json → Text
  | null => "null"
  | bool b => if b then "true" else "false"
  | int n => Text.ofInt n
  | float x => x.write .json
  | text t => writeString charset t
  | array items => "[" ++ Text.joinWith "," (writeItems charset items) ++ "]"
  | object members => "\x7b" ++ Text.joinWith "," (writeMembers charset members) ++ "\x7d"

/-- Every item without blanks. -/
def writeItems (charset : Charset) : List Json → List Text
  | [] => []
  | j :: rest => write charset j :: writeItems charset rest

/-- Every name before its value, without blanks. -/
def writeMembers (charset : Charset) : List (Text × Json) → List Text
  | [] => []
  | (name, j) :: rest =>
    (writeString charset name ++ ":" ++ write charset j) :: writeMembers charset rest

end

end Json

end CloudEnvelope
