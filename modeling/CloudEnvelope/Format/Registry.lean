import CloudEnvelope.Format.Basic
import CloudEnvelope.MediaType
import CloudEnvelope.OrderedMap

/-!
# The registry of formats

Formats are registered under their normalised media types, each type once. A request is served by
the format of its type, or else, when it names a plain type such as `application/json`, by the first
structured type of the same syntax, such as `application/cloudevents+json`.
-/

namespace CloudEnvelope

/-- The formats under their normalised media types, in the order of their registration. -/
structure FormatRegistry where
  formats : OrderedMap Text EventFormat

namespace FormatRegistry

/-- The registry without formats. -/
def empty : FormatRegistry := ⟨.empty⟩

/-- The registered media types. -/
def mediaTypes (r : FormatRegistry) : List Text := r.formats.keys

/-- The number of formats. -/
def size (r : FormatRegistry) : Nat := r.formats.size

/-- Adds a format under a media type that is not taken. -/
def register (r : FormatRegistry) :
    Supplied EventFormat → Except ConfigurationIssue FormatRegistry
  | .foreign typeName => .error (.notFormat typeName)
  | .component f =>
    let key := MediaType.normalize f.mediaType
    if r.formats.contains key then .error (.duplicateMediaType key)
    else .ok ⟨r.formats.insert key f⟩

/-- The registry of a list of formats. -/
def ofList (formats : List (Supplied EventFormat)) : Except ConfigurationIssue FormatRegistry :=
  formats.foldlM register empty

/-- The request asks for a plain type: it has a slash and no plus sign. -/
def isPlain (key : Text) : Bool := key.contains (.scalar '/') && !key.contains (.scalar '+')

/-- The first format of a structured type that is written in the syntax of a plain type. -/
def structured? (r : FormatRegistry) (key : Text) : Option EventFormat :=
  if isPlain key then
    (r.formats.entries.find? fun e => MediaType.structured? e.1 == some (MediaType.split key)).map
      (·.2)
  else none

/-- The format that serves a normalised media type. -/
def find? (r : FormatRegistry) (key : Text) : Option EventFormat :=
  (r.formats.get? key).or (r.structured? key)

/-- The format that serves a request. -/
def get (r : FormatRegistry) (mediaType : Text) : Except Failure EventFormat :=
  match r.find? (MediaType.normalize mediaType) with
  | some f => .ok f
  | none => .error (.unsupportedFormat mediaType r.mediaTypes)

/-- A request is served. -/
def has (r : FormatRegistry) (mediaType : Text) : Bool :=
  (r.find? (MediaType.normalize mediaType)).isSome

/-- The format that was registered first. -/
def first (r : FormatRegistry) : Except Failure EventFormat :=
  match r.formats.entries with
  | (_, f) :: _ => .ok f
  | [] => .error (.unsupportedFormat "<default>" [])

end FormatRegistry

end CloudEnvelope
