import CloudEnvelope.Calendar.TimeReader
import CloudEnvelope.Event.Basic
import CloudEnvelope.Number.Word

/-!
# Validation of events

`Event.validate` makes an event of loose field values, or reports the problems of all fields in
field order. A text field takes a text or its UTF-8 bytes, a mandatory one has to have a UTF-8 form
and not be empty, the data takes bytes or a text, and the time takes what `TimeReading` can read.
-/

namespace CloudEnvelope

namespace Field

/-- A text, or the UTF-8 bytes of one. -/
def text : Value → Except ProblemKind Text
  | .text t => .ok t
  | .bytes b => (Utf8.toString? b).elim (.error .stringUnicode) fun s => .ok s
  | .buffer b => (Utf8.toString? b).elim (.error .stringUnicode) fun s => .ok s
  | _ => .error .stringType

/-- A string with at least one character. -/
def nonempty (v : Value) : Except ProblemKind { s : String // s ≠ "" } :=
  match text v with
  | .ok t =>
    match t.toString? with
    | some s => if h : s ≠ "" then .ok ⟨s, h⟩ else .error .stringTooShort
    | none => .error .stringUnicode
  | .error kind => .error kind

/-- Bytes, or the UTF-8 form of a text. -/
def bytes : Value → Except ProblemKind Bytes
  | .bytes b => .ok b
  | .buffer b => .ok b
  | .text t => t.utf8?.elim (.error .stringUnicode) .ok
  | _ => .error .bytesType

/-- The time of a reading; what cannot be read is a problem of the given kind. -/
def ofReading (unreadable : ProblemKind) : TimeReading → Except ProblemKind DateTime
  | .moment t => .ok t
  | .yearZero => .error .datetimeParsing
  | .unreadable => .error unreadable

/-- The reading of a text, when it is known which scalar values it has. -/
def ofScalars (cs : Option (List Char)) (otherwise : ProblemKind) :
    Except ProblemKind DateTime :=
  match cs with
  | some cs => ofReading .datetimeFromDateParsing (.ofChars cs)
  | none => .error otherwise

/-- The reading of a number that is an integer: one that does not fit 64 bits is read as a
floating-point number, as long as it has one. -/
def ofInteger (n : Int) : Except ProblemKind DateTime :=
  if Word.holds 64 n then ofReading .datetimeParsing (UnixTime.ofInteger n)
  else
    match Binary64.ofInt n with
    | .infinite _ => .error .datetimeType
    | x => ofReading .datetimeParsing (UnixTime.ofFloat x)

/-- A time, a date, a number or a text that spells one of them. -/
def time : Value → Except ProblemKind DateTime
  | .dateTime t => .ok t
  | .date d => .ok (.midnight d)
  | .text t => ofScalars t.scalars? .stringUnicode
  | .bytes b => ofScalars (Utf8.decode? b) .datetimeFromDateParsing
  | .int n => ofInteger n
  | .float x => ofReading .datetimeParsing (UnixTime.ofFloat x)
  | _ => .error .datetimeType

/-- Nothing, or a value that a reader takes. -/
def optional {α : Type} (read : Value → Except ProblemKind α) :
    Value → Except ProblemKind (Option α)
  | .null => .ok none
  | v => (read v).map some

end Field

/-- The field values of an event to be; a field that is not there is not given. -/
structure EventDraft where
  specversion : Option Value := none
  id : Option Value := none
  source : Option Value := none
  type : Option Value := none
  time : Option Value := none
  dataContentType : Option Value := none
  dataSchema : Option Value := none
  subject : Option Value := none
  data : Option Value := none
  extensions : List (Value × Value) := []

namespace EventDraft

/-- A field that has to be given. -/
def mandatory {α : Type} (name : Text) (read : Value → Except ProblemKind α) :
    Option Value → Checked α
  | some v => Checked.at' [.name name] (read v)
  | none => .error [⟨[.name name], .missing⟩]

/-- A field that has a value when it is not given. -/
def defaulted {α : Type} (name : Text) (read : Value → Except ProblemKind α) (default : α) :
    Option Value → Checked α
  | some v => Checked.at' [.name name] (read v)
  | none => .ok default

/-- An extension under its name. -/
def extension (e : Value × Value) : Checked (Text × Value) :=
  match Field.text e.1 with
  | .ok name => .ok (name, e.2)
  | .error kind => .error [⟨[.name "extensions", .ofKey e.1, .name "[key]"], kind⟩]

/-- The extensions under their names. -/
def extensionMap (es : List (Value × Value)) : Checked (OrderedMap Text Value) :=
  (Checked.all (es.map extension)).map .ofList

end EventDraft

/-- The event of loose field values, or the problems of all fields. -/
def Event.validate (d : EventDraft) : Checked Event := do
  let fields :=
    Checked.both (EventDraft.defaulted "specversion" Field.text
      (Text.ofString Event.currentVersion) d.specversion) <|
    Checked.both (EventDraft.mandatory "id" Field.nonempty d.id) <|
    Checked.both (EventDraft.mandatory "source" Field.nonempty d.source) <|
    Checked.both (EventDraft.mandatory "type" Field.nonempty d.type) <|
    Checked.both (EventDraft.defaulted "time" (Field.optional Field.time) none d.time) <|
    Checked.both (EventDraft.defaulted "data_content_type" (Field.optional Field.text) none
      d.dataContentType) <|
    Checked.both (EventDraft.defaulted "data_schema" (Field.optional Field.text) none
      d.dataSchema) <|
    Checked.both (EventDraft.defaulted "subject" (Field.optional Field.text) none d.subject) <|
    Checked.both (EventDraft.defaulted "data" Field.bytes [] d.data) <|
    EventDraft.extensionMap d.extensions
  let (specversion, id, source, type, time, contentType, schema, subject, data, extensions) ←
    fields
  return {
    specversion := specversion
    id := id.val
    source := source.val
    type := type.val
    time := time
    dataContentType := contentType
    dataSchema := schema
    subject := subject
    data := data
    extensions := extensions
    id_ne := id.property
    source_ne := source.property
    type_ne := type.property }

end CloudEnvelope
