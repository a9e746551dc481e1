import CloudEnvelope.Uri.Host
import CloudEnvelope.Uri.Reference

/-!
# Absolute URLs

An absolute URL is read into its parts (`Url.parts?`) and written again (`Url.Parts.write`): scheme
and host in lower case, the number after the host left out when the scheme implies it, dot segments
resolved, at least a slash as the path after a web host, and everything that a component may not
hold percent-encoded. A `Url` is the result of that, so two values are equal when their forms are.

A path that does not start with a slash, as in `urn:isbn:123`, is taken as it is: nothing but
control characters and what lies outside ASCII is encoded in it.
-/

namespace CloudEnvelope

namespace Url

/-! ### Schemes -/

/-- The schemes whose URLs always have a host, and their default ports. -/
def defaultPort? : List Char → Option Nat
  | ['h', 't', 't', 'p'] => some 80
  | ['h', 't', 't', 'p', 's'] => some 443
  | ['w', 's'] => some 80
  | ['w', 's', 's'] => some 443
  | ['f', 't', 'p'] => some 21
  | _ => none

/-- The rules that the rest of a URL is read by. -/
inductive Kind where
  /-- A web scheme with its default port. -/
  | web (standard : Nat)
  | file
  | other
deriving DecidableEq, Repr

namespace Kind

/-- The kind of a scheme in lower case. -/
def ofScheme (scheme : List Char) : Kind :=
  match defaultPort? scheme with
  | some standard => web standard
  | none => if scheme = ['f', 'i', 'l', 'e'] then file else other

/-- All schemes but the other ones are special. -/
def isSpecial (k : Kind) : Bool := k != other

/-- A slash, or a backslash that counts as one. -/
def isSlash (k : Kind) (c : Char) : Bool := c == '/' || (k.isSpecial && c == '\\')

end Kind

/-- The scheme in lower case, and what follows its colon. -/
def scheme? (cs : List Char) : Option (List Char × List Char) :=
  match cs.takeWhile UriReference.isSchemeChar, cs.dropWhile UriReference.isSchemeChar with
  | c :: scheme, ':' :: rest =>
    if c.isAlpha then some ((c :: scheme).map Char.toLower, rest) else none
  | _, _ => none

/-! ### Percent-encoding -/

/-- An upper-case hexadecimal digit. -/
def hexDigit (n : Nat) : Char := if n < 10 then Char.ofNat (48 + n) else Char.ofNat (55 + n)

/-- The percent-encoded UTF-8 form of a character. -/
def percentEncode (c : Char) : List Char :=
  (Utf8.encodeChar c).flatMap fun b => ['%', hexDigit (b.toNat / 16), hexDigit (b.toNat % 16)]

/-- Encodes what lies outside printable ASCII and what is listed. -/
def encodeAll (listed : List Char) (cs : List Char) : List Char :=
  cs.flatMap fun c =>
    if c.toNat < 0x20 ∨ 0x7E < c.toNat ∨ listed.contains c then percentEncode c else [c]

/-- What is encoded in a fragment. -/
def fragmentSet : List Char := " \"<>\x60".toList

/-- What is encoded in a query; an apostrophe too where the scheme is special. -/
def querySet (special : Bool) : List Char :=
  if special then " \"#<>'".toList else " \"#<>".toList

/-- What is encoded in a path. -/
def pathSet : List Char := " \"#<>?\x60\x7b\x7d".toList

/-- What is encoded in a user name or a password. -/
def userSet : List Char := " \"#<>?\x60\x7b\x7d/:;=@[\\]^|".toList

/-! ### Authorities -/

/-- An authority in its parsed form: the user information with its at sign, the host, and the number
after the host with its colon. -/
structure Authority where
  user : List Char
  host : Host
  portNumber : List Char

namespace Authority

/-- The authority without a host. -/
def empty : Authority := ⟨[], .name [], []⟩

/-- The authority as it stands between slashes. -/
def write (a : Authority) : List Char := a.user ++ a.host.write ++ a.portNumber

end Authority

/-- The part before the last at sign, if there is one, and the rest. -/
def splitUser (cs : List Char) : Option (List Char) × List Char :=
  let place := (cs.reverse.takeWhile (· != '@')).reverse
  if place.length = cs.length then (none, cs)
  else (some (cs.take (cs.length - place.length - 1)), place)

/-- User name and password in their encoded form before an at sign. -/
def userInfo (cs : List Char) : List Char :=
  let user := cs.takeWhile (· != ':')
  let password := (cs.dropWhile (· != ':')).drop 1
  let shown := encodeAll userSet user ++
    if password.isEmpty then [] else ':' :: encodeAll userSet password
  if shown.isEmpty then [] else shown ++ ['@']

/-- The host of a scheme. -/
def host? (special : Bool) : List Char → Option Host
  | '[' :: rest => Host.literal? rest
  | cs =>
    if special then Host.special? cs
    else if cs.any Host.forbidden.contains then none
    else some (.name (encodeAll [] cs))

/-- The number after the host in its serialised form: nothing when it is the scheme's default. -/
def portNumber? (k : Kind) (cs : List Char) : Option (List Char) :=
  if cs.isEmpty then some []
  else if cs.all Char.isDigit then
    let n := Address.number 10 cs
    if 65535 < n then none
    else if k = .web n then some []
    else some (':' :: Nat.toDigits 10 n)
  else none

/-- The host and the number after it: a colon between brackets does not end the host. -/
def splitHost (cs : List Char) : List Char × List Char :=
  let literal := if cs.head? = some '[' then cs.takeWhile (· != ']') else []
  let rest := cs.drop literal.length
  (literal ++ rest.takeWhile (· != ':'), (rest.dropWhile (· != ':')).drop 1)

/-- An authority that is not empty has a host. -/
def authority? (k : Kind) (cs : List Char) : Option Authority := do
  let (user, place) := splitUser cs
  let (host, portNumber) := splitHost place
  if host.isEmpty then none
  else
    let host ← host? k.isSpecial host
    let portNumber ← portNumber? k portNumber
    some ⟨(user.map userInfo).getD [], host, portNumber⟩

/-! ### Paths -/

/-- The path of a URL: what stands for itself, or segments that follow slashes. -/
inductive Path where
  | bare (cs : List Char)
  | rooted (segments : List (List Char))

/-- The path as it stands in a URL. -/
def Path.write : Path → List Char
  | bare cs => cs
  | rooted segments => segments.flatMap ('/' :: ·)

/-- A segment that stands for the same place. -/
def isSingleDot (segment : List Char) : Bool :=
  ["." , "%2e"].contains (String.ofList (segment.map Char.toLower))

/-- A segment that stands for the place above. -/
def isDoubleDot (segment : List Char) : Bool :=
  ["..", ".%2e", "%2e.", "%2e%2e"].contains (String.ofList (segment.map Char.toLower))

/-- A letter and a colon or a bar, as a drive of a file system is named. -/
def isDrive : List Char → Bool
  | [c, mark] => c.isAlpha && (mark == ':' || mark == '|')
  | _ => false

/-- Enters a segment; a drive at the start of a file path gets its colon. The segments that were
entered before stand in reverse. -/
def enter (k : Kind) (segment : List Char) (done : List (List Char)) : List (List Char) :=
  if k = .file && done.isEmpty && isDrive segment then [segment.take 1 ++ [':']]
  else segment :: done

/-- Leaves the last segment; the drive of a file path stays. -/
def leave (k : Kind) (done : List (List Char)) : List (List Char) :=
  match done with
  | [drive] => if k = .file && isDrive drive then done else []
  | _ => done.drop 1

/-- The segments of a path with dot segments resolved; a dot segment at the end leaves an empty
one. -/
def resolveDots (k : Kind) (done : List (List Char)) : List (List Char) → List (List Char)
  | [] => done.reverse
  | [segment] =>
    if isDoubleDot segment then ([] :: leave k done).reverse
    else if isSingleDot segment then ([] :: done).reverse
    else (enter k segment done).reverse
  | segment :: rest =>
    if isDoubleDot segment then resolveDots k (leave k done) rest
    else if isSingleDot segment then resolveDots k done rest
    else resolveDots k (enter k segment done) rest

/-- The segments of a path that starts with a slash. -/
def segments (isSlash : Char → Bool) : List Char → List (List Char)
  | [] => [[]]
  | c :: rest =>
    match segments isSlash rest with
    | [] => [[c]]
    | segment :: more =>
      if isSlash c then [] :: segment :: more else (c :: segment) :: more

/-- The path of a place; it is empty only where the scheme is not special. -/
def path (k : Kind) (cs : List Char) : Path :=
  if cs.isEmpty && !k.isSpecial then .rooted []
  else
    let body := if (cs.head?.map k.isSlash).getD false then cs.drop 1 else cs
    .rooted ((resolveDots k [] (segments k.isSlash body)).map (encodeAll pathSet))

/-- Authority and path of what follows two slashes. -/
def placed? (k : Kind) (cs : List Char) : Option (Option Authority × Path) :=
  let name := cs.takeWhile (!k.isSlash ·)
  let authority := if name.isEmpty && k = .other then some .empty else authority? k name
  authority.map fun a => (some a, path k (cs.dropWhile (!k.isSlash ·)))

/-- Authority and path of what follows two slashes after the scheme of files: a host without user
information and number, and none before a drive. -/
def filed? (cs : List Char) : Option (Option Authority × Path) :=
  let name := cs.takeWhile (!Kind.file.isSlash ·)
  let after := cs.dropWhile (!Kind.file.isSlash ·)
  if isDrive name then some (some .empty, path .file cs)
  else if name.isEmpty then some (some .empty, path .file after)
  else (host? true name).map fun host =>
    let shown := if host = .name "localhost".toList then .name [] else host
    (some { Authority.empty with host := shown }, path .file after)

/-- Authority and path of what follows a scheme, up to the query and the fragment. -/
def body? (k : Kind) (cs : List Char) : Option (Option Authority × Path) :=
  let slashes := (cs.takeWhile k.isSlash).length
  match k with
  | .web _ => placed? k (cs.drop slashes)
  | .file => if 2 ≤ slashes then filed? (cs.drop 2) else some (some .empty, path k cs)
  | .other =>
    if 2 ≤ slashes then placed? k (cs.drop 2)
    else some (none, if slashes = 1 then path k cs else .bare (encodeAll [] cs))

/-! ### URLs -/

/-- Query and fragment in their serialised form, each after its mark. -/
def queryAndFragment (special : Bool) (cs : List Char) : List Char :=
  let query := cs.takeWhile (· != '#')
  let fragment := cs.dropWhile (· != '#')
  let query := match query with
    | '?' :: q => '?' :: encodeAll (querySet special) q
    | _ => []
  let fragment := match fragment with
    | '#' :: f => '#' :: encodeAll fragmentSet f
    | _ => []
  query ++ fragment

/-- The input without surrounding controls and spaces, and without tabs and line ends. -/
def cleaned (cs : List Char) : List Char :=
  let isOuter (c : Char) : Bool := (CodePoint.scalar c).isControlOrSpace
  let trimmed := ((cs.dropWhile isOuter).reverse.dropWhile isOuter).reverse
  trimmed.filter fun c => c != '\t' && c != '\n' && c != '\r'

/-- The parts of an absolute URL in their serialised form. -/
structure Parts where
  scheme : List Char
  authority : Option Authority
  path : Path
  trailer : List Char

/-- The parts of the URL that a string spells. -/
def parts? (s : String) : Option Parts := do
  let (scheme, rest) ← scheme? (cleaned s.toList)
  let k := Kind.ofScheme scheme
  let endsPath (c : Char) : Bool := c == '?' || c == '#'
  let (authority, path) ← body? k (rest.takeWhile (!endsPath ·))
  some ⟨scheme, authority, path, queryAndFragment k.isSpecial (rest.dropWhile (!endsPath ·))⟩

/-- What stands between the scheme and the query. A path that would pass for an authority is kept
apart by a dot. -/
def Parts.place (p : Parts) : List Char :=
  match p.authority with
  | some a => '/' :: '/' :: (a.write ++ p.path.write)
  | none =>
    match p.path.write with
    | '/' :: '/' :: rest => '/' :: '.' :: '/' :: '/' :: rest
    | cs => cs

/-- The URL in its serialised form. -/
def Parts.write (p : Parts) : List Char := p.scheme ++ ':' :: (p.place ++ p.trailer)

/-- The serialised form of an absolute URL. -/
def normalForm? (s : String) : Option String := (parts? s).map (String.ofList ·.write)

end Url

/-- An absolute URL in its serialised form. -/
structure Url where
  href : String
  normal : ∃ s, Url.normalForm? s = some href

namespace Url

/-- The URL that a string spells. -/
def parse? (s : String) : Option Url :=
  match h : normalForm? s with
  | some href => some ⟨href, s, h⟩
  | none => none

instance : DecidableEq Url := fun a b =>
  if h : a.href = b.href then .isTrue (by cases a; cases b; simp_all)
  else .isFalse (by rintro rfl; exact h rfl)

end Url

end CloudEnvelope
