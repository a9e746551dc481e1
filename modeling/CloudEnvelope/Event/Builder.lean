import CloudEnvelope.Attribute.Resolution
import CloudEnvelope.Event.Data
import CloudEnvelope.Event.Validation

/-!
# Building events

An `EventBuilder` holds one specification for each configured attribute. It resolves the attributes
from the headers of a message and builds the event from them, the payload and the extensions.
-/

namespace CloudEnvelope

/-- The specifications by attribute; the mandatory attributes are among them and are required. -/
structure EventBuilder where
  specs : OrderedMap ContextAttribute AttributeSpec
  complete : ∀ a ∈ ContextAttribute.mandatory, ((specs.get? a).any (·.required)) = true

namespace EventBuilder

/-- The attribute of a specification, which has to be of its kind. -/
def attributeOf (s : AttributeSpec) : Except ConfigurationIssue ContextAttribute :=
  match ContextAttribute.ofName? s.name with
  | none => .error (.unknownAttribute s.name)
  | some a => if s.kind = a.kind then .ok a else .error (.wrongKind s.name a.kind s.kind)

/-- The mandatory attributes without a specification that requires them. -/
def unrequired (specs : OrderedMap ContextAttribute AttributeSpec) : List ContextAttribute :=
  ContextAttribute.mandatory.filter fun a => !(specs.get? a).any (·.required)

/-- The builder of a list of specifications. A later one for the same attribute replaces an
earlier. -/
def ofSpecs (specs : List AttributeSpec) : Except ConfigurationIssue EventBuilder := do
  let named ← specs.mapM fun s => do return (← attributeOf s, s)
  let map := OrderedMap.ofList named
  if h : unrequired map = [] then
    .ok ⟨map, by
      intro a ha
      have := List.filter_eq_nil_iff.1 h a ha
      simpa using this⟩
  else .error (.notRequired ((unrequired map).map fun a => a.name))

/-- Resolves the attributes in the order of their specifications, and leaves out those that have no
value. -/
def resolveAll (headers : Headers) :
    List (ContextAttribute × AttributeSpec) → Except Failure (List (Text × Value))
  | [] => .ok []
  | (a, s) :: rest =>
    match s.resolve headers with
    | .error e => .error e
    | .ok none => resolveAll headers rest
    | .ok (some v) => (resolveAll headers rest).map (((a.name : Text), v.toValue) :: ·)

/-- The attributes that have a value, under their names. -/
def resolve (b : EventBuilder) (headers : Headers) : Except Failure (OrderedMap Text Value) :=
  (resolveAll headers b.specs.entries).map .ofList

/-- The extensions whose names are forbidden, in the order of names. -/
def colliding (extensions : Headers) : List Text :=
  (Event.forbiddenNames.map Text.ofString).filter extensions.contains

/-- An attribute that has to be given. -/
def demand (attributes : OrderedMap Text Value) (a : ContextAttribute) : Except Failure Value :=
  match attributes.get? a.name with
  | some v => .ok v
  | none => .error (.fault (.missingName a.name))

/-- The event of resolved attributes, a payload and extensions, where there is room for so many
values inside one another. -/
def build (attributes : OrderedMap Text Value) (payload : Value) (extensions : Headers)
    (room : Nat := Value.usualRoom) : Except Failure Event := do
  if colliding extensions ≠ [] then
    throw (.configuration (.extensionCollides (colliding extensions)))
  let id ← demand attributes .id
  let source ← demand attributes .source
  let type ← demand attributes .type
  let other (a : ContextAttribute) : Option Value := some ((attributes.get? a.name).getD .null)
  match payload.toData room with
  | .error fault => throw (.fault fault)
  | .ok data =>
    let draft : EventDraft :=
      { id := some id
        source := some source
        type := some type
        time := other .time
        dataContentType := other .dataContentType
        dataSchema := other .dataSchema
        subject := other .subject
        data := some (.bytes data)
        extensions := extensions.entries.map fun e => (.text e.1, e.2) }
    match Event.validate draft with
    | .ok e => return e
    | .error problems => throw (.invalidEvent problems)

end EventBuilder

end CloudEnvelope
