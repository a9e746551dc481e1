import CloudEnvelope.Text.Utf8
import CloudEnvelope.Uri.Address

/-!
# Hosts

The host of a URL is a name or an IPv6 address. Names of the special schemes are brought to lower
case with their percent-encoding resolved, and a name that ends in a number is an IPv4 address, with
its numbers in decimal, octal or hexadecimal. An IPv6 address is its eight numbers
(`Version6.parse?`), written with the first of its longest runs of zeros left out
(`Version6.write`).

Names of the special schemes are in ASCII here, and labels in Punycode are taken as they are; others
are refused.
-/

namespace CloudEnvelope

namespace Address

/-- The value of a hexadecimal digit. -/
def digitValue (c : Char) : Nat := if c.isDigit then c.toNat - 48 else c.toLower.toNat - 87

/-- The number that digits spell in a base. -/
def number (base : Nat) (cs : List Char) : Nat := cs.foldl (fun n c => base * n + digitValue c) 0

end Address

/-- An IPv6 address as its eight numbers. -/
structure Version6 where
  pieces : List (Fin 0x10000)
  length_eq : pieces.length = 8
deriving DecidableEq, Repr

namespace Version6

open Address

/-! ### Reading -/

/-- The number of one to four hexadecimal digits. -/
def hextet? (cs : List Char) : Option (Fin 0x10000) :=
  if isHextet cs then some (Fin.ofNat _ (number 16 cs)) else none

/-- The two numbers of an IPv4 address at the end. -/
def ofVersion4? (cs : List Char) : Option (List (Fin 0x10000)) :=
  if isVersion4 cs then
    match (split '.' cs).map (number 10) with
    | [a, b, c, d] => some [Fin.ofNat _ (256 * a + b), Fin.ofNat _ (256 * c + d)]
    | _ => none
  else none

/-- The numbers between colons, where an IPv4 address at the end counts as two. -/
def pieces? (cs : List Char) : Option (List (Fin 0x10000)) :=
  if cs.isEmpty then some []
  else
    let parts := split ':' cs
    let final := parts.getLast?.getD []
    if final.contains '.' then do
      let front ← parts.dropLast.mapM hextet?
      (ofVersion4? final).map (front ++ ·)
    else parts.mapM hextet?

/-- The part before the first double colon, and the part after it if there is one. -/
def splitGap : List Char → List Char × Option (List Char)
  | [] => ([], none)
  | ':' :: ':' :: rest => ([], some rest)
  | c :: rest =>
    let (before, after) := splitGap rest
    (c :: before, after)

/-- Eight numbers are an address. -/
def ofPieces? (pieces : List (Fin 0x10000)) : Option Version6 :=
  if h : pieces.length = 8 then some ⟨pieces, h⟩ else none

/-- The address of eight numbers, or of fewer around a double colon that stands for zeros. -/
def parse? (cs : List Char) : Option Version6 :=
  match splitGap cs with
  | (whole, none) => (pieces? whole).bind ofPieces?
  | (before, some after) => do
    let front ← if before.contains '.' then none else pieces? before
    let back ← pieces? after
    let missing := 8 - (front.length + back.length)
    if missing = 0 then none else ofPieces? (front ++ List.replicate missing 0 ++ back)

/-! ### Writing -/

/-- The place and the length of the first longest run of zeros, from the place `start` on, or `best`
when no run there is longer. -/
def longestRun (start : Nat) (best : Nat × Nat) : List (Fin 0x10000) → Nat × Nat
  | [] => best
  | p :: rest =>
    let length := ((p :: rest).takeWhile (· == 0)).length
    longestRun (start + 1) (if best.2 < length then (start, length) else best) rest

/-- The parts around a double colon; one empty part stands for a missing side. -/
def side (parts : List (List Char)) : List (List Char) := if parts.isEmpty then [[]] else parts

/-- The parts between the colons of the written address. -/
def parts (a : Version6) : List (List Char) :=
  let hextets := a.pieces.map fun p => Nat.toDigits 16 p.val
  let (start, length) := longestRun 0 (0, 0) a.pieces
  if length < 2 then hextets
  else side (hextets.take start) ++ [] :: side (hextets.drop (start + length))

/-- The numbers in hexadecimal between colons, a run of zeros left out between two of them. -/
def write (a : Version6) : List Char := [':'].intercalate a.parts

end Version6

/-- A host in its parsed form. -/
inductive Host where
  | name (cs : List Char)
  | literal (address : Version6)
deriving DecidableEq, Repr

namespace Host

open Address

/-- The host as it stands in a URL. -/
def write : Host → List Char
  | name cs => cs
  | literal address => '[' :: address.write ++ [']']

/-! ### IPv4 addresses -/

/-- A number in hexadecimal after `0x`, in octal after a zero, or in decimal. -/
def number? : List Char → Option Nat
  | [] => none
  | '0' :: 'x' :: digits => if digits.all isHexDigit then some (number 16 digits) else none
  | '0' :: c :: digits =>
    if (c :: digits).all fun d => '0' ≤ d && d ≤ '7' then some (number 8 (c :: digits)) else none
  | digits => if digits.all Char.isDigit then some (number 10 digits) else none

/-- The labels of a name; a point at its end adds none. -/
def labels (name : List Char) : List (List Char) :=
  let parts := split '.' name
  if 1 < parts.length && parts.getLast? == some [] then parts.dropLast else parts

/-- A name whose last label is a number is an IPv4 address or nothing. -/
def endsInNumber (name : List Char) : Bool :=
  let final := (labels name).getLast?.getD []
  (!final.isEmpty && final.all Char.isDigit) || (number? final).isSome

/-- The number of an IPv4 address: each number but the last stands for one byte. -/
def version4? (name : List Char) : Option Nat := do
  let numbers ← (labels name).mapM number?
  let final ← numbers.getLast?
  let front := numbers.dropLast
  if 3 < front.length || front.any (255 < ·) || 1 <<< (32 - 8 * front.length) ≤ final then none
  else some (front.foldr (fun n high => n * 0x1000000 + high / 0x100) 0 + final)

/-- The bytes of an IPv4 address in decimal between points. -/
def writeVersion4 (n : Nat) : List Char :=
  ['.'].intercalate
    ([n / 0x1000000, n / 0x10000 % 0x100, n / 0x100 % 0x100, n % 0x100].map (Nat.toDigits 10 ·))

/-! ### Names -/

/-- What no host may hold. -/
def forbidden : List Char := "\x00\t\n\r #/:<>?@[\\]^|".toList

/-- What no name of a special scheme may hold. -/
def isForbiddenInName (c : Char) : Bool :=
  forbidden.contains c || c == '%' || c.toNat < 0x20 || c.toNat == 0x7F

/-- The characters of a name with its percent-encoding resolved, if they are all in ASCII. -/
def percentDecoded? : List Char → Option (List Char)
  | [] => some []
  | '%' :: high :: low :: rest =>
    if isHexDigit high && isHexDigit low then
      if number 16 [high, low] < 0x80 then
        (percentDecoded? rest).map (Char.ofNat (number 16 [high, low]) :: ·)
      else none
    else (percentDecoded? (high :: low :: rest)).map ('%' :: ·)
  | c :: rest => if c.toNat < 0x80 then (percentDecoded? rest).map (c :: ·) else none

/-- A name of a special scheme, or its IPv4 address. -/
def special? (cs : List Char) : Option Host := do
  let decoded ← percentDecoded? cs
  let name := decoded.map Char.toLower
  if name.isEmpty || name.any isForbiddenInName then none
  else if endsInNumber name then (version4? name).map (.name ∘ writeVersion4)
  else some (.name name)

/-- An IPv6 address in brackets. -/
def literal? (cs : List Char) : Option Host :=
  if cs.getLast? = some ']' then (Version6.parse? cs.dropLast).map .literal else none

end Host

end CloudEnvelope
