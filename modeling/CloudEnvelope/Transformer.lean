import CloudEnvelope.Classifier
import CloudEnvelope.Converter
import CloudEnvelope.Event.Builder
import CloudEnvelope.Format.Registry
import CloudEnvelope.Settings

/-!
# Transformation of messages

A `Transformer` makes an event of a message and then a message of the event. The headers of the
message supply the context attributes; some become extensions, some are dropped, and all others
pass through. The event is either written by a format, which is chosen for every message, or framed
by the one converter.

`Transformer.make` refuses settings that could only fail later: reserved names that would become
extensions, and headers that could be both attribute and extension.
-/

namespace CloudEnvelope

/-- How events become messages. -/
inductive Strategy where
  | formats (registry : FormatRegistry)
  | converter (c : MessageConverter)

namespace Strategy

/-- The strategy of the components that a user brings: formats or a converter, never both. -/
def make (formats : List (Supplied EventFormat)) (converter : Option (Supplied MessageConverter)) :
    Except ConfigurationIssue Strategy :=
  match formats, converter with
  | [], none => .error .notOneStrategy
  | _ :: _, some _ => .error .notOneStrategy
  | [], some (.foreign typeName) => .error (.notConverter typeName)
  | [], some (.component c) => .ok (.converter c)
  | _ :: _, none => (FormatRegistry.ofList formats).map .formats

/-- The media types that can be written. -/
def mediaTypes : Strategy → List Text
  | formats registry => registry.mediaTypes
  | converter _ => []

/-- A default media type is one that can be written. -/
def checkDefault (s : Strategy) : Option Text → Except ConfigurationIssue Unit
  | none => .ok ()
  | some mediaType =>
    match s with
    | converter _ => .error .defaultMediaTypeUnused
    | formats registry =>
      if registry.has mediaType then .ok () else .error (.defaultMediaTypeUnserved mediaType)

end Strategy

/-- A way to transform messages. -/
structure Transformer where
  builder : EventBuilder
  classifier : Classifier
  strategy : Strategy
  defaultMediaType : Option Text

namespace Transformer

/-- The reserved names that a classifier would make extensions of. -/
def promotedNames (c : Classifier) : List Text :=
  (Event.forbiddenNames.map Text.ofString).filter fun name => c.outcome name = .promoted

/-- No reserved name becomes an extension. -/
def checkReserved (c : Classifier) : Except ConfigurationIssue Unit :=
  if promotedNames c = [] then .ok () else .error (.reservedNames (promotedNames c))

/-- The patterns of a specification and of a classifier that some key would satisfy both. -/
def overlapping (specs : List AttributeSpec) (c : Classifier) :
    List (HeaderPattern × Text × HeaderPattern) :=
  specs.flatMap fun s =>
    s.pattern.toList.flatMap fun p =>
      (c.patterns.filter p.overlaps).map fun q => (p, s.name, q)

/-- No header can be both attribute and extension. -/
def checkOverlap (specs : List AttributeSpec) (c : Classifier) : Except ConfigurationIssue Unit :=
  match overlapping specs c with
  | [] => .ok ()
  | (p, name, q) :: _ => .error (.patternsOverlap p.token name q.token)

/-- The transformer of settings and of the components that a user brings. -/
def make (settings : Settings) (formats : List (Supplied EventFormat))
    (converter : Option (Supplied MessageConverter)) : Except ConfigurationIssue Transformer := do
  let strategy ← Strategy.make formats converter
  let builder ← EventBuilder.ofSpecs (← settings.specs)
  let classifier ← Classifier.ofTokens (settings.extensionPatterns.getD [])
  strategy.checkDefault settings.defaultMediaType
  checkReserved classifier
  checkOverlap (builder.specs.entries.map (·.2)) classifier
  return {
    builder := builder
    classifier := classifier
    strategy := strategy
    defaultMediaType := settings.defaultMediaType }

/-- The event of a message, where there is room for so many values inside one another. -/
def toEvent (t : Transformer) (m : Message) (room : Nat := Value.usualRoom) :
    Except Failure Event := do
  let attributes ← t.builder.resolve m.headers
  EventBuilder.build attributes m.payload (t.classifier.classify m.headers).extensions room

/-- The headers that pass through. -/
def passing (t : Transformer) (headers : Headers) : Headers :=
  let removed := (t.classifier.classify headers).removed
  headers.filter fun key _ => !removed.contains key

/-- The format for a media type that may be asked for; an empty one is not asked for. -/
def chooseFormat (t : Transformer) (registry : FormatRegistry) (mediaType : Option Text) :
    Except Failure EventFormat :=
  -- The default stands in for an absent request and for an empty one alike.
  let requested := match mediaType with
    | some (c :: rest) => some (c :: rest)
    | _ => t.defaultMediaType
  match requested with
  | some name => registry.get name
  | none => registry.first

/-- The message of an event with the headers that pass through. -/
def encode (t : Transformer) (e : Event) (headers : Headers) (mediaType : Option Text) :
    Except Failure Message :=
  match t.strategy with
  | .converter c => do
    match ← c.convert e headers with
    | some m => return m
    | none => throw (.encoding (.notConverted c.name))
  | .formats registry => do
    let f ← t.chooseFormat registry mediaType
    return { payload := .bytes (← f.serialize e), headers := headers }

/-- The message of an event in place of a message. -/
def transform (t : Transformer) (m : Message) (mediaType : Option Text)
    (room : Nat := Value.usualRoom) : Except TransformationFailure Message :=
  let result := do
    let e ← t.toEvent m room
    t.encode e (t.passing m.headers) mediaType
  result.mapError .mk

end Transformer

end CloudEnvelope
