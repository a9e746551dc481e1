import CloudEnvelope.Attribute.Value
import CloudEnvelope.Message
import CloudEnvelope.Pattern

/-!
# Resolution of attributes

An attribute takes its value from the one header whose key matches its pattern, or else from its
default. Two matching headers are a failure even where there is a default.

An `AttributeSpec` holds how one attribute is resolved. Its default is converted once, when the
specification is made, and a required attribute has a pattern or a default.
-/

namespace CloudEnvelope

namespace Attribute

/-- The headers whose keys match a pattern, in header order. -/
def candidates (headers : Headers) (p : HeaderPattern) : List (Text × Value) :=
  headers.entries.filter fun e => p.accepts e.1

/-- The value of an attribute: converted from the only matching header, or else the default. -/
def resolve {α : Type} (headers : Headers) (p : HeaderPattern) (default : Option α)
    (convert : Text → Value → Except TypeMismatch α) (name : Text) (required : Bool) :
    Except Failure (Option α) :=
  match candidates headers p with
  | [] =>
    if default.isNone && required then .error (.missingAttribute name (some p.token))
    else .ok default
  | [(_, v)] =>
    match convert name v with
    | .ok a => .ok (some a)
    | .error m => .error (.typeMismatch m)
  | matching => .error (.ambiguousAttribute name p.token (matching.map (·.1)))

/-- The value of an attribute whose pattern is given by a token. An attribute without a name is
named after the token. -/
def resolveToken {α : Type} (headers : Headers) (token : Text) (default : Option α)
    (convert : Text → Value → Except TypeMismatch α) (name : Option Text) (required : Bool) :
    Except Failure (Option α) :=
  let shownName := match name with
    | some (c :: rest) => c :: rest
    | _ => token
  match HeaderPattern.parse token false with
  | .ok p => resolve headers p default convert shownName required
  | .error issue => .error (.configuration issue)

end Attribute

/-- How one attribute is resolved. -/
structure AttributeSpec where
  name : Text
  kind : AttributeKind
  pattern : Option HeaderPattern
  default : Option AttributeValue
  required : Bool
  supplied : required = true → pattern.isSome ∨ default.isSome

namespace AttributeSpec

/-- The default of an attribute, converted. -/
def convertDefault (name : Text) (kind : AttributeKind) :
    Option Value → Except ConfigurationIssue (Option AttributeValue)
  | none => .ok none
  | some .null => .ok none
  | some v =>
    match kind.convert name v with
    | .ok a => .ok (some a)
    | .error m => .error (.invalidDefault m)

/-- The pattern of an attribute, which is not negated. -/
def parsePattern : Option Text → Except ConfigurationIssue (Option HeaderPattern)
  | none => .ok none
  | some token => (HeaderPattern.parse token false).map some

/-- The specification of a name, a kind, a token and a default. -/
def make (name : Text) (kind : AttributeKind) (token : Option Text) (default : Option Value)
    (required : Bool) : Except ConfigurationIssue AttributeSpec := do
  let pattern ← parsePattern token
  let default ← convertDefault name kind default
  if h : required = true → pattern.isSome ∨ default.isSome then
    .ok ⟨name, kind, pattern, default, required, h⟩
  else .error (.noPatternAndNoDefault name)

/-- The value of the attribute for the headers of a message. -/
def resolve (s : AttributeSpec) (headers : Headers) : Except Failure (Option AttributeValue) :=
  match s.pattern with
  | none => .ok s.default
  | some p => Attribute.resolve headers p s.default s.kind.convert s.name s.required

end AttributeSpec

end CloudEnvelope
