import CloudEnvelope.Json.Basic

/-!
# Reading JSON

`Json.read?` reads a whole JSON text. Beyond the standard it accepts `NaN`, `Infinity` and
`-Infinity` as numbers, and an escape of a lone surrogate. Of members with equal names the first
position and the last value count.

The recursive functions carry the number of steps they may take; every step consumes a character, so
the length of the text bounds them.
-/

namespace CloudEnvelope

namespace Json

/-- A space, a tab or a line end: all that may stand between tokens. -/
def isBlank (c : Char) : Bool := c == ' ' || c == '\t' || c == '\n' || c == '\r'

/-- The text from its first token on. -/
def skipBlanks (cs : List Char) : List Char := cs.dropWhile isBlank

/-- What follows a word. -/
def after? (word : List Char) (cs : List Char) : Option (List Char) :=
  if word.isPrefixOf cs then some (cs.drop word.length) else none

/-- The number that a hexadecimal digit stands for. -/
def hexValue? (c : Char) : Option Nat :=
  if c.isDigit then some (c.toNat - 48)
  else if 'a' ≤ c ∧ c ≤ 'f' then some (c.toNat - 87)
  else if 'A' ≤ c ∧ c ≤ 'F' then some (c.toNat - 55)
  else none

/-- The code point, perhaps a lone surrogate, that four hexadecimal digits denote. -/
def unit? (a b c d : Char) : Option CodePoint := do
  let w ← hexValue? a
  let x ← hexValue? b
  let y ← hexValue? c
  let z ← hexValue? d
  CodePoint.ofNat? (((w * 16 + x) * 16 + y) * 16 + z)

/-- The character that a letter after a backslash denotes. -/
def escaped? : Char → Option Char
  | '"' => some '"'
  | '\\' => some '\\'
  | '/' => some '/'
  | 'b' => some '\x08'
  | 'f' => some '\x0c'
  | 'n' => some '\n'
  | 'r' => some '\r'
  | 't' => some '\t'
  | _ => none

/-- The code points of a string up to its closing quote, and what follows. -/
def units? : List Char → Option (Text × List Char)
  | [] => none
  | '"' :: rest => some ([], rest)
  | '\\' :: 'u' :: a :: b :: c :: d :: rest => do
    let u ← unit? a b c d
    let (t, rest) ← units? rest
    some (u :: t, rest)
  | '\\' :: e :: rest => do
    let c ← escaped? e
    let (t, rest) ← units? rest
    some (.scalar c :: t, rest)
  | c :: rest =>
    if c.toNat < 0x20 || c == '\\' then none
    else do
      let (t, rest) ← units? rest
      some (.scalar c :: t, rest)

/-- Neighbouring halves of a surrogate pair become the scalar value they stand for. -/
def joinPairs : Text → Text
  | [] => []
  | .lone high :: .lone low :: rest =>
    if high.val < 0x400 ∧ 0x400 ≤ low.val then
      .scalar (Char.ofNat (0x10000 + high.val * 0x400 + (low.val - 0x400))) :: joinPairs rest
    else .lone high :: joinPairs (.lone low :: rest)
  | c :: rest => c :: joinPairs rest

/-- A string after its opening quote, and what follows. -/
def string? (cs : List Char) : Option (Text × List Char) := do
  let (t, rest) ← units? cs
  some (joinPairs t, rest)

/-- The digits before a point: a zero alone, or digits that do not start with zero. -/
def wholePart? : List Char → Option (List Char × List Char)
  | '0' :: rest => some (['0'], rest)
  | cs =>
    let digits := cs.takeWhile Char.isDigit
    if digits.isEmpty then none else some (digits, cs.dropWhile Char.isDigit)

/-- The digits after a point, if at least one stands there. -/
def fractionPart : List Char → List Char × List Char
  | '.' :: rest =>
    let digits := rest.takeWhile Char.isDigit
    if digits.isEmpty then ([], '.' :: rest) else (digits, rest.dropWhile Char.isDigit)
  | cs => ([], cs)

/-- A signed exponent, if its letter and at least one digit stand there. -/
def exponentPart (cs : List Char) : Option Int × List Char :=
  match cs with
  | mark :: rest =>
    if mark == 'e' || mark == 'E' then
      let (negative, body) := match rest with
        | '-' :: more => (true, more)
        | '+' :: more => (false, more)
        | _ => (false, rest)
      let digits := body.takeWhile Char.isDigit
      if digits.isEmpty then (none, cs)
      else
        let n : Int := Nat.ofDigitChars 10 digits 0
        (some (if negative then -n else n), body.dropWhile Char.isDigit)
    else (none, cs)
  | [] => (none, cs)

/-- A number, and what follows. -/
def number? (cs : List Char) : Option (Json × List Char) := do
  let (negative, body) := match cs with
    | '-' :: rest => (true, rest)
    | _ => (false, cs)
  let (whole, rest) ← wholePart? body
  let (fraction, rest) := fractionPart rest
  let (exponent, rest) := exponentPart rest
  if fraction.isEmpty && exponent.isNone then
    let n : Int := Nat.ofDigitChars 10 whole 0
    some (int (if negative then -n else n), rest)
  else
    some (float (.ofDecimal negative (Nat.ofDigitChars 10 (whole ++ fraction) 0)
      (exponent.getD 0 - fraction.length)), rest)

/-- The words that stand for values. -/
def words : List (List Char × Json) :=
  [("null".toList, null), ("true".toList, bool true), ("false".toList, bool false),
    ("NaN".toList, float .nan), ("Infinity".toList, float (.infinite false)),
    ("-Infinity".toList, float (.infinite true))]

/-- A word or a number, and what follows. -/
def atom? (cs : List Char) : Option (Json × List Char) :=
  match words.findSome? fun (word, j) => (after? word cs).map (j, ·) with
  | some found => some found
  | none => number? cs

mutual

/-- A value, and what follows. -/
def value? : Nat → List Char → Option (Json × List Char)
  | 0, _ => none
  | fuel + 1, cs =>
    match cs with
    | '"' :: rest => do
      let (t, rest) ← string? rest
      some (text t, rest)
    | '[' :: rest =>
      match skipBlanks rest with
      | ']' :: rest => some (array [], rest)
      | rest => do
        let (items, rest) ← items? fuel rest
        some (array items, rest)
    | '\x7b' :: rest =>
      match skipBlanks rest with
      | '\x7d' :: rest => some (object [], rest)
      | rest => do
        let (members, rest) ← members? fuel rest
        some (objectOfList members, rest)
    | cs => atom? cs

/-- The items of an array up to its closing bracket, and what follows. -/
def items? : Nat → List Char → Option (List Json × List Char)
  | 0, _ => none
  | fuel + 1, cs => do
    let (j, rest) ← value? fuel cs
    match skipBlanks rest with
    | ']' :: rest => some ([j], rest)
    | ',' :: rest => do
      let (items, rest) ← items? fuel (skipBlanks rest)
      some (j :: items, rest)
    | _ => none

/-- The members of an object up to its closing brace, and what follows. -/
def members? : Nat → List Char → Option (List (Text × Json) × List Char)
  | 0, _ => none
  | fuel + 1, cs =>
    match cs with
    | '"' :: rest => do
      let (name, rest) ← string? rest
      match skipBlanks rest with
      | ':' :: rest => do
        let (j, rest) ← value? fuel (skipBlanks rest)
        match skipBlanks rest with
        | '\x7d' :: rest => some ([(name, j)], rest)
        | ',' :: rest => do
          let (members, rest) ← members? fuel (skipBlanks rest)
          some ((name, j) :: members, rest)
        | _ => none
      | _ => none
    | _ => none

end

/-- The value of a whole JSON text. -/
def read? (cs : List Char) : Option Json := do
  let (j, rest) ← value? (cs.length + 1) (skipBlanks cs)
  if (skipBlanks rest).isEmpty then some j else none

end Json

end CloudEnvelope
