import CloudEnvelope.Text.Blank
import CloudEnvelope.Uri.Address

/-!
# URI references

A text passes as a URI reference when it is not empty, holds no blank and has an authority that can
be told apart: brackets come in pairs and enclose an address literal, and no code point outside
ASCII stands for one of the delimiters under compatibility normalisation.
-/

namespace CloudEnvelope

/-- Why a text is not a URI reference. -/
inductive UriFault where
  /-- The text is empty or holds a blank. -/
  | blank
  /-- The text has no authority that can be told apart. -/
  | authority
deriving DecidableEq, Repr

namespace UriReference

/-- A letter, a digit or one of the marks that a scheme may hold. -/
def isSchemeChar (c : Char) : Bool := c.isAlphanum || c == '+' || c == '-' || c == '.'

/-- What follows the scheme, or the whole text when it has no scheme. -/
def afterScheme (t : Text) : Text :=
  match t.splitFirst ':' with
  | (scheme, some rest) =>
    match scheme.mapM CodePoint.scalar? with
    | some (c :: cs) => if c.isAlpha && cs.all isSchemeChar then rest else t
    | _ => t
  | _ => t

/-- One of the marks that end an authority. -/
def endsAuthority (c : CodePoint) : Bool :=
  c == .scalar '/' || c == .scalar '?' || c == .scalar '#'

/-- The part between two slashes after the scheme and the next delimiter. -/
def authority? (t : Text) : Option Text :=
  match afterScheme (t.dropWhile CodePoint.isControlOrSpace) with
  | .scalar '/' :: .scalar '/' :: rest => some (rest.takeWhile (!endsAuthority ·))
  | _ => none

/-- The code points outside ASCII whose compatibility form holds a delimiter. -/
def delimiterLike : List Nat :=
  [0x2047, 0x2048, 0x2049, 0x2100, 0x2101, 0x2105, 0x2106, 0x2A74, 0xFE13, 0xFE16, 0xFE55,
    0xFE56, 0xFE5F, 0xFE6B, 0xFF03, 0xFF0F, 0xFF1A, 0xFF1F, 0xFF20]

/-- A host without brackets, or an address literal in brackets, with nothing but a colon and its
number after it. -/
def isBracketed (authority : Text) : Bool :=
  let host := (authority.afterLast? '@').getD authority
  match host.splitFirst '[' with
  | (_, none) => Address.isLiteral (host.splitFirst ':').1
  | ([], some rest) =>
    let (literal, afterLiteral) := rest.splitFirst ']'
    let afterLiteral := afterLiteral.getD []
    Address.isLiteral literal &&
      (afterLiteral.isEmpty || afterLiteral.head? == some (.scalar ':'))
  | _ => false

/-- The brackets of an authority come in pairs and enclose an address literal. -/
def bracketsFit (authority : Text) : Bool :=
  match authority.contains (.scalar '['), authority.contains (.scalar ']') with
  | false, false => true
  | true, true => isBracketed authority
  | _, _ => false

/-- The authority can be told apart. -/
def authorityFits (authority : Text) : Bool :=
  bracketsFit authority && authority.all fun c => !delimiterLike.contains c.toNat

/-- What keeps a text from being a URI reference. -/
def fault? (t : Text) : Option UriFault :=
  if t.isEmpty || t.any CodePoint.isBlank then some .blank
  else if (authority? t).all authorityFits then none
  else some .authority

end UriReference

end CloudEnvelope
