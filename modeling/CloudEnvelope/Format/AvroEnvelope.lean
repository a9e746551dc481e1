import CloudEnvelope.Avro.RecordReader
import CloudEnvelope.Event.Validation

/-!
# Events in Avro

An event is a single object: a mark, the fingerprint of the schema and then the record. The version
is not written; an event that is read is of the current one. The time is written as its instant,
which for a local time is that of the zone that the writer is in. That zone is taken to be UTC.
-/

namespace CloudEnvelope.AvroEnvelope

/-- The media type of events in Avro. -/
def mediaType : String := "application/cloudevents+avrocompact"

/-- The mark of a single object, and the fingerprint of the schema. -/
def header : Bytes := [0xC3, 0x01, 0xBA, 0x27, 0xB9, 0x22, 0x09, 0xF0, 0xEF, 0x56]

/-- The extension values of a map. -/
def extensionMap (m : OrderedMap Text Value) :
    Except EncodingIssue (OrderedMap Text ExtensionValue) :=
  (ExtensionValue.ofEntries m.entries).map .ofList

/-- The record of an event. -/
def record (e : Event) : Except EncodingIssue Avro.Record := do
  let extensions ← extensionMap e.extensions
  return {
    id := e.id
    source := e.source
    type := e.type
    dataContentType := e.dataContentType
    dataSchema := e.dataSchema
    subject := e.subject
    time := e.time
    extensions := extensions
    data := e.data }

/-- The bytes of an event in Avro. -/
def serialize (e : Event) : Except EncodingIssue Bytes := do
  let r ← record e
  match r.write with
  | .ok body => return header ++ body
  | .error f => throw (.avroWriting f)

/-- The failure behind a record that cannot be read. -/
def unreadable : Fault → Failure
  | .indexOutOfRange => .fault .indexOutOfRange
  | .timeOutOfRange => .fault .timeOutOfRange
  | f => .encoding (.avroReading f)

/-- The event of a record. -/
def ofRecord (r : Avro.Record) : Checked Event :=
  let optional (t : Option Text) : Option Value := some ((t.map Value.text).getD .null)
  Event.validate
    { id := some (.text r.id)
      source := some (.text r.source)
      type := some (.text r.type)
      time := some ((r.time.map Value.dateTime).getD .null)
      dataContentType := optional r.dataContentType
      dataSchema := optional r.dataSchema
      subject := optional r.subject
      data := some (.bytes r.data)
      extensions := r.extensions.entries.map fun e => (.text e.1, e.2.toValue) }

/-- The event of bytes in Avro; what follows the record is not looked at. -/
def deserialize (raw : Bytes) : Except Failure Event :=
  if header.isPrefixOf raw then
    match Avro.Record.read (raw.drop header.length) with
    | .error f => .error (unreadable f)
    | .ok (r, _) =>
      match ofRecord r with
      | .ok e => .ok e
      | .error problems => .error (.fault (.invalid problems))
  else .error (.encoding .noAvroHeader)

end CloudEnvelope.AvroEnvelope
