import CloudEnvelope.Attribute.Value
import CloudEnvelope.OrderedMap

/-!
# Events

An `Event` is the envelope of version 1.0: context attributes, raw data and extensions. The
mandatory attributes are strings, so they have a UTF-8 form, and are not empty. What an extension
holds is any value; formats decide what they can carry.
-/

namespace CloudEnvelope

/-- An event in its envelope. -/
structure Event where
  specversion : Text
  id : String
  source : String
  type : String
  time : Option DateTime
  dataContentType : Option Text
  dataSchema : Option Text
  subject : Option Text
  data : Bytes
  extensions : OrderedMap Text Value
  id_ne : id ≠ ""
  source_ne : source ≠ ""
  type_ne : type ≠ ""

namespace Event

/-- The version that events have unless told otherwise. -/
def currentVersion : String := "1.0"

/-- The context attributes that are there, under their names and in their order. -/
def attributes (e : Event) : List (String × AttributeValue) :=
  let text (name : String) (t : Text) : String × AttributeValue := (name, .text t)
  [text "specversion" e.specversion, text "id" e.id, text "source" e.source, text "type" e.type]
    ++ (e.time.map fun t => ("time", .time t)).toList
    ++ (e.dataContentType.map (text "datacontenttype")).toList
    ++ (e.dataSchema.map (text "dataschema")).toList
    ++ (e.subject.map (text "subject")).toList

/-- The value of an extension in one map equals that in another. -/
def sameExtensions (a b : OrderedMap Text Value) : Bool :=
  a.size == b.size && a.entries.all fun e => (b.get? e.1).any e.2.sameAs

/-- Equality of events: times are compared as times, and extensions without regard to order. -/
def sameAs (a b : Event) : Bool :=
  let sameTime := match a.time, b.time with
    | none, none => true
    | some s, some t => s.equals t
    | _, _ => false
  a.specversion == b.specversion && a.id == b.id && a.source == b.source && a.type == b.type
    && sameTime && a.dataContentType == b.dataContentType && a.dataSchema == b.dataSchema
    && a.subject == b.subject && a.data == b.data && sameExtensions a.extensions b.extensions

end Event

end CloudEnvelope
