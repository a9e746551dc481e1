import CloudEnvelope.Attribute.Kind
import CloudEnvelope.Problem

/-!
# Failures

Everything that can go wrong is a cause here, and its wording is in one place: `Failure.message`.

* A `ConfigurationIssue` is a mistake in the setup of a component.
* A `Failure` arises while a message is mapped to an event, or an event to bytes and back. It may
  carry the `Fault` behind it: what a codec or a validation had to object.
* A `TransformationFailure` wraps the failure of a whole transformation.

`Failure.kind?` sorts the failures into the hierarchy of `ErrorKind`.
-/

namespace CloudEnvelope

/-- The hierarchy of failures. -/
inductive ErrorKind where
  | root
  | configuration
  | mapping
  | missingAttribute
  | ambiguousAttribute
  | typeMismatch
  | unsupportedFormat
  | encoding
  | transformation
deriving DecidableEq, Repr

namespace ErrorKind

/-- The kinds. -/
def all : List ErrorKind :=
  [root, configuration, mapping, missingAttribute, ambiguousAttribute, typeMismatch,
    unsupportedFormat, encoding, transformation]

/-- The name of a kind, as reports give it. -/
def name : ErrorKind → String
  | root => "CloudEventsError"
  | configuration => "ConfigurationError"
  | mapping => "EventMappingError"
  | missingAttribute => "MissingAttributeError"
  | ambiguousAttribute => "AmbiguousAttributeError"
  | typeMismatch => "TypeMismatchError"
  | unsupportedFormat => "UnsupportedFormatError"
  | encoding => "EncodingError"
  | transformation => "TransformationError"

/-- The kind that a kind belongs to directly. -/
def parent? : ErrorKind → Option ErrorKind
  | root => none
  | configuration => some root
  | mapping => some root
  | transformation => some root
  | _ => some mapping

/-- The kinds that a kind belongs to, the nearest first. -/
def ancestors (k : ErrorKind) : List ErrorKind :=
  match k.parent? with
  | none => []
  | some p => p :: p.parent?.toList

/-- The kind of a name. -/
def ofName? (s : String) : Option ErrorKind := all.find? fun k => k.name == s

end ErrorKind

/-- The wording of a failure that is reported with values and nothing else. -/
def Failure.wordingOf : List Value → Text
  | [] => []
  | [v] => v.shown
  | vs => (Value.tuple vs).literal

/-- What a codec, a validation or a component has to object. -/
inductive Fault where
  /-- Values did not pass validation. -/
  | invalid (problems : List Problem)
  /-- A text is not JSON. -/
  | malformedJson
  /-- Bytes are not UTF-8. -/
  | undecodableBytes
  /-- A text holds a lone surrogate. -/
  | unencodableText
  /-- A text is not base64. -/
  | malformedBase64
  /-- A text to be read as base64 holds more than ASCII. -/
  | nonAsciiBase64
  /-- A value to be read as base64 is not a text. -/
  | noBase64Text
  /-- A text has no authority that can be told apart. -/
  | malformedUri
  /-- A text is not a time. -/
  | malformedTime
  /-- A JSON text denotes something else than an object. -/
  | notAnObject
  /-- An object is of another version; the value found is shown. -/
  | unsupportedVersion (found : Text)
  /-- A member or an attribute that has to be there is missing. -/
  | missingName (name : Text)
  /-- The content type of an object has to be examined and is not a text. -/
  | contentTypeNotText
  /-- Data ends too early. -/
  | endOfData
  /-- An index points past the branches of a union, or a number breaks off. -/
  | indexOutOfRange
  /-- A time lies outside the years 1 to 9999. -/
  | timeOutOfRange
  /-- An integer is too large for the extension types. -/
  | integerOutOfRange
  /-- An integer has too many digits to be written in decimal. -/
  | tooManyDigits
  /-- Values lie too deep inside one another to be followed. -/
  | nestedTooDeep
  /-- A component that is not part of this library failed. -/
  | component
deriving DecidableEq, Repr

/-- A value that is not what an attribute must be. -/
structure TypeMismatch where
  name : Text
  valueType : Text
  expected : Text
  reason : Option Text := none
  fault : Option Fault := none
deriving DecidableEq, Repr

/-- The wording of a mismatch; an empty reason is no reason. -/
def TypeMismatch.message (m : TypeMismatch) : Text :=
  let reason := m.reason.getD []
  let ending : Text := if reason.isEmpty then [] else " - " ++ reason
  "CloudEvent attribute '" ++ m.name ++ "' must be " ++ m.expected
    ++ " but header contains: " ++ m.valueType ++ ending

/-- Mistakes in the setup of a component. -/
inductive ConfigurationIssue where
  | patternNotText (typeName : Text)
  | negationNotAllowed (token : Text)
  | emptyBody (token : Text)
  | misplacedWildcard (token : Text)
  | misplacedNegation (token : Text)
  | invalidDefault (mismatch : TypeMismatch)
  | noPatternAndNoDefault (name : Text)
  | unknownAttribute (name : Text)
  | wrongKind (name : Text) (expected found : AttributeKind)
  | notRequired (names : List Text)
  | extensionCollides (names : List Text)
  | invalidSettings (problems : List Problem)
  | notOneStrategy
  | notConverter (typeName : Text)
  | notFormat (typeName : Text)
  | duplicateMediaType (mediaType : Text)
  | defaultMediaTypeUnused
  | defaultMediaTypeUnserved (mediaType : Text)
  | reservedNames (names : List Text)
  | patternsOverlap (pattern name extension : Text)
deriving DecidableEq, Repr

/-- The wording of a mistake. -/
def ConfigurationIssue.message : ConfigurationIssue → Text
  | patternNotText typeName => "Header pattern must be a string, got " ++ typeName
  | negationNotAllowed token => "Negated pattern '" ++ token ++ "' is not allowed here"
  | emptyBody token => "Header pattern '" ++ token ++ "' has an empty body"
  | misplacedWildcard token =>
    "Header pattern '" ++ token ++ "' may only use '*' at its start or end"
  | misplacedNegation token => "Header pattern '" ++ token ++ "' has a misplaced '!'"
  | invalidDefault m => "Invalid default for attribute '" ++ m.name ++ "': " ++ m.message
  | noPatternAndNoDefault name =>
    "Attribute '" ++ name ++ "' needs a header pattern or a default"
  | unknownAttribute name => "Unknown CloudEvent attribute '" ++ name ++ "'"
  | wrongKind name expected found =>
    "Attribute '" ++ name ++ "' must be of kind " ++ expected.name ++ ", got " ++ found.name
  | notRequired names =>
    "Mandatory attribute(s) not configured as required: " ++ Text.joinWith ", " names
  | extensionCollides names =>
    "Extension name(s) collide with context attributes or envelope members: "
      ++ Text.joinWith ", " names
  | invalidSettings _ => "Invalid transformer settings"
  | notOneStrategy =>
    "Configure exactly one encoding strategy: event formats or a message converter"
  | notConverter typeName => typeName ++ " does not implement MessageConverter"
  | notFormat typeName => typeName ++ " does not implement EventFormat"
  | duplicateMediaType mediaType => "Media type '" ++ mediaType ++ "' is already registered"
  | defaultMediaTypeUnused => "default_media_type only applies when event formats are configured"
  | defaultMediaTypeUnserved mediaType =>
    "No event format registered for default media type '" ++ mediaType ++ "'"
  | reservedNames names =>
    "Extension patterns would promote reserved attribute or envelope member name(s): "
      ++ Text.joinWith ", " names
  | patternsOverlap pattern name extension =>
    "Pattern '" ++ pattern ++ "' for attribute '" ++ name
      ++ "' overlaps extension pattern '" ++ extension ++ "'"

/-- Reasons why an event cannot be encoded, or bytes not decoded. -/
inductive EncodingIssue where
  | reservedExtension (name : Text)
  | collidingMember (name : Text)
  | unsupportedType (name typeName : Text)
  | notElementName (name : Text)
  /-- The encoded text holds a lone surrogate. -/
  | unencodable
  | invalidJson (fault : Fault)
  | avroWriting (fault : Fault)
  | avroReading (fault : Fault)
  | noAvroHeader
  | notConverted (converter : Text)
deriving DecidableEq, Repr

/-- The wording of a reason. Where a codec's own words would follow, nothing does. -/
def EncodingIssue.message : EncodingIssue → Text
  | reservedExtension name => "Extension '" ++ name ++ "' collides with an envelope member"
  | collidingMember name => "Extension '" ++ name ++ "' collides with a JSON format member"
  | unsupportedType name typeName =>
    "Extension '" ++ name ++ "' has unsupported type " ++ typeName
  | notElementName name => "Extension '" ++ name ++ "' is not a valid XML element name"
  | unencodable => []
  | invalidJson fault =>
    "Invalid CloudEvent JSON" ++
      match fault with
      | .notAnObject => (": CloudEvent JSON must be an object" : Text)
      | .unsupportedVersion found => ": Unsupported specversion " ++ found
      | .missingName name => ": " ++ name.quoted
      | _ => []
  | avroWriting _ => "Avro encoding failed"
  | avroReading _ => "Avro decoding failed"
  | noAvroHeader => "Not an Avro single-object CloudEvent for this schema"
  | notConverted converter => converter ++ " was unable to convert the CloudEvent"

/-- The fault behind a reason. -/
def EncodingIssue.fault? : EncodingIssue → Option Fault
  | unencodable => some .unencodableText
  | invalidJson fault => some fault
  | avroWriting fault => some fault
  | avroReading fault => some fault
  | _ => none

/-- What can go wrong with one message or one event. -/
inductive Failure where
  | configuration (issue : ConfigurationIssue)
  | missingAttribute (name : Text) (pattern : Option Text)
  | ambiguousAttribute (name pattern : Text) (keys : List Text)
  | typeMismatch (mismatch : TypeMismatch)
  | unsupportedFormat (mediaType : Text) (available : List Text)
  | encoding (issue : EncodingIssue)
  | invalidEvent (problems : List Problem)
  /-- A fault that no kind of failure covers. -/
  | fault (f : Fault)
deriving DecidableEq, Repr

namespace Failure

/-- The kind of a failure, unless it is a bare fault. -/
def kind? : Failure → Option ErrorKind
  | configuration _ => some .configuration
  | missingAttribute _ _ => some .missingAttribute
  | ambiguousAttribute _ _ _ => some .ambiguousAttribute
  | typeMismatch _ => some .typeMismatch
  | unsupportedFormat _ _ => some .unsupportedFormat
  | encoding _ => some .encoding
  | invalidEvent _ => some .mapping
  | fault _ => none

/-- The wording of a failure. -/
def message : Failure → Text
  | configuration issue => issue.message
  | missingAttribute name pattern =>
    "No header found for CloudEvent attribute '" ++ name ++ "' (pattern "
      ++ (pattern.map Text.quoted).getD "None" ++ ") and no default configured"
  | ambiguousAttribute name pattern keys =>
    "Multiple headers match the '" ++ pattern ++ "' pattern for attribute '" ++ name
      ++ "': " ++ Text.joinWith ", " keys
  | typeMismatch m => m.message
  | unsupportedFormat mediaType available =>
    let names := Text.joinWith ", " available
    let listed : Text := if names.isEmpty then "none" else names
    "No event format registered for media type '" ++ mediaType ++ "' (available: "
      ++ listed ++ ")"
  | encoding issue => issue.message
  | invalidEvent _ => "Invalid CloudEvent attributes"
  | fault _ => []

/-- The failure behind a failure. -/
def cause? : Failure → Option Failure
  | configuration (.invalidDefault m) => some (typeMismatch m)
  | configuration (.invalidSettings problems) => some (fault (.invalid problems))
  | typeMismatch m => m.fault.map fault
  | encoding issue => issue.fault?.map fault
  | invalidEvent problems => some (fault (.invalid problems))
  | _ => none

end Failure

/-- The failure of a whole transformation. -/
structure TransformationFailure where
  cause : Failure
deriving DecidableEq, Repr

/-- The wording of every failed transformation. -/
def TransformationFailure.message : Text := "failed to transform message"

end CloudEnvelope
