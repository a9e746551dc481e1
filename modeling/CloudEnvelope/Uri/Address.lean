import CloudEnvelope.Text.Basic

/-!
# Address literals

An address literal stands between brackets in the authority of a URI. It is an IPv6 address, with a
zone after a percent sign if need be, or an address of a future version.
-/

namespace CloudEnvelope.Address

/-- The parts of a sequence between the occurrences of `mark`. -/
def split (mark : Char) : List Char → List (List Char)
  | [] => [[]]
  | c :: rest =>
    match split mark rest with
    | [] => [[c]]
    | part :: parts => if c = mark then [] :: part :: parts else (c :: part) :: parts

/-- An ASCII hexadecimal digit. -/
def isHexDigit (c : Char) : Bool :=
  c.isDigit || ('a' ≤ c && c ≤ 'f') || ('A' ≤ c && c ≤ 'F')

/-- A number up to 255 in decimal without leading zeros. -/
def isOctet (cs : List Char) : Bool :=
  cs.all Char.isDigit && (cs.length == 1 || ((cs.length == 2 || cs.length == 3) &&
    cs.head? != some '0')) && Nat.ofDigitChars 10 cs 0 ≤ 255

/-- Four octets between points. -/
def isVersion4 (cs : List Char) : Bool :=
  let octets := split '.' cs
  octets.length == 4 && octets.all isOctet

/-- One to four hexadecimal digits. -/
def isHextet (cs : List Char) : Bool :=
  cs.all isHexDigit && 1 ≤ cs.length && cs.length ≤ 4

/-- The parts between colons, where an address of version 4 at the end counts as two hextets. -/
def parts? (cs : List Char) : Option (List (List Char)) :=
  let parts := split ':' cs
  match parts.getLast? with
  | some final =>
    if parts.length < 3 then none
    else if final.contains '.' then
      if isVersion4 final then some (parts.dropLast ++ [['0'], ['0']]) else none
    else some parts
  | none => none

/-- Eight hextets between colons, or fewer around one double colon. -/
def isVersion6 (cs : List Char) : Bool :=
  match parts? cs with
  | none => false
  | some parts =>
    let inner := parts.tail.dropLast
    let gaps := (inner.filter List.isEmpty).length
    if 9 < parts.length then false
    else if gaps = 0 then parts.length == 8 && parts.all isHextet
    else if gaps = 1 then
      let index := 1 + inner.findIdx List.isEmpty
      let before := parts.take index
      let after := parts.drop (index + 1)
      let before := if before == [[]] then [] else before
      let after := if after == [[]] then [] else after
      before.all isHextet && after.all isHextet && before.length + after.length < 8
    else false

/-- An address of version 6. A zone that follows a percent sign is not empty and holds no further
percent sign; beyond that it may hold anything. -/
def isVersion6WithZone (t : Text) : Bool :=
  let (address, zone) := t.splitFirst '%'
  address.scalars?.any isVersion6 &&
    zone.all fun zone => !zone.isEmpty && !zone.contains (.scalar '%')

/-- The letter `v`, a version in hexadecimal, a point and more. -/
def isFuture : Text → Bool
  | .scalar 'v' :: rest =>
    match Text.splitFirst '.' rest with
    | (version, some more) =>
      !version.isEmpty && (Text.scalars? version).any (·.all isHexDigit) && !more.isEmpty
    | _ => false
  | _ => false

/-- What may stand between brackets. -/
def isLiteral (t : Text) : Bool :=
  if t.head? = some (.scalar 'v') then isFuture t else isVersion6WithZone t

end CloudEnvelope.Address
