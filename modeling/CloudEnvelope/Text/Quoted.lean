import CloudEnvelope.Text.Printable
import CloudEnvelope.Text.Utf8

/-!
# Quoted literals

Messages show a text, and renderings of compound values show texts and bytes, as quoted literals:
between apostrophes, or between double quotes when the content holds an apostrophe and no double
quote. Inside, the quote, the backslash and everything that is not printable is escaped.
-/

namespace CloudEnvelope

namespace Quoted

/-- The quote put around content: an apostrophe unless only a double quote avoids escapes. -/
def mark (holdsApostrophe holdsDouble : Bool) : Char :=
  if holdsApostrophe && !holdsDouble then '"' else '\''

/-- The lower-case hexadecimal digits of `n`, filled with zeros to `width`. -/
def hex (width n : Nat) : Text :=
  let digits := Nat.toDigits 16 n
  Text.ofChars (List.replicate (width - digits.length) '0' ++ digits)

/-- The escape of a code point by its number, in two, four or eight hexadecimal digits. -/
def escapeNumber (n : Nat) : Text :=
  if n ≤ 0xFF then "\\x" ++ hex 2 n
  else if n ≤ 0xFFFF then "\\u" ++ hex 4 n
  else "\\U" ++ hex 8 n

/-- The escapes that have a letter of their own. -/
def escapeControl? (n : Nat) : Option Text :=
  if n = 9 then some "\\t" else if n = 10 then some "\\n" else if n = 13 then some "\\r" else none

/-- A code point inside a literal with the given quote. -/
def escape (quote : Char) (c : CodePoint) : Text :=
  if c = .scalar quote || c = .scalar '\\' then [.scalar '\\', c]
  else (escapeControl? c.toNat).getD (if c.isPrintable then [c] else escapeNumber c.toNat)

/-- A byte inside a literal with the given quote: only printable ASCII stands for itself. -/
def escapeByte (quote : Char) (b : UInt8) : Text :=
  let c := Char.ofNat b.toNat
  if c = quote || c = '\\' then [.scalar '\\', .scalar c]
  else
    (escapeControl? b.toNat).getD
      (if 0x20 ≤ b.toNat ∧ b.toNat < 0x7F then [.scalar c] else escapeNumber b.toNat)

end Quoted

/-- The text as a quoted literal. -/
def Text.quoted (t : Text) : Text :=
  let quote := Quoted.mark (t.contains (.scalar '\'')) (t.contains (.scalar '"'))
  .scalar quote :: t.flatMap (Quoted.escape quote) ++ [.scalar quote]

namespace Bytes

/-- The quote put around bytes. -/
def mark (bytes : Bytes) : Char := Quoted.mark (bytes.contains 0x27) (bytes.contains 0x22)

/-- Bytes between quotes after the letter `b`, with one kind of quote escaped among them. -/
def between (quote escaped : Char) (bytes : Bytes) : Text :=
  .scalar 'b' :: .scalar quote :: bytes.flatMap (Quoted.escapeByte escaped) ++ [.scalar quote]

/-- The bytes as a quoted literal after the letter `b`. -/
def quoted (bytes : Bytes) : Text := between bytes.mark bytes.mark bytes

/-- The literal of bytes that may change: an apostrophe is escaped between double quotes too. -/
def quotedMutable (bytes : Bytes) : Text := between bytes.mark '\'' bytes

end Bytes

end CloudEnvelope
