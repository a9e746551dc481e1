import CloudEnvelope.Event.Basic
import CloudEnvelope.Failure
import CloudEnvelope.Format.AvroEnvelope
import CloudEnvelope.Format.JsonEnvelope
import CloudEnvelope.Format.XmlEnvelope

/-!
# Event formats

An `EventFormat` makes bytes of an event and declares their media type. This library has three of
them; a user may bring others. What a user brings may also be no format at all: a `Supplied` value
is a component or something foreign, of which only the name of its type is known.
-/

namespace CloudEnvelope

/-- A component that a user brings, or a value that is none. -/
inductive Supplied (α : Type) where
  | component (a : α)
  | foreign (typeName : Text)

/-- A way to write events, and the media type that it declares. -/
structure EventFormat where
  name : Text
  mediaType : Text
  serialize : Event → Except Failure Bytes

namespace EventFormat

/-- A failure to encode among all failures. -/
def encoding {α : Type} (r : Except EncodingIssue α) : Except Failure α := r.mapError .encoding

/-- Events in JSON. -/
def json : EventFormat where
  name := "JsonFormat"
  mediaType := JsonEnvelope.mediaType
  serialize e := encoding (JsonEnvelope.serialize e)

/-- Events in XML. -/
def xml : EventFormat where
  name := "XmlFormat"
  mediaType := XmlEnvelope.mediaType
  serialize := XmlEnvelope.serialize

/-- Events in Avro. -/
def avro : EventFormat where
  name := "AvroCompactFormat"
  mediaType := AvroEnvelope.mediaType
  serialize e := encoding (AvroEnvelope.serialize e)

end EventFormat

end CloudEnvelope
