import CloudEnvelope.Event.Basic
import CloudEnvelope.Extension
import CloudEnvelope.Json.Nesting
import CloudEnvelope.Json.Printer
import CloudEnvelope.MediaType

/-!
# Events in JSON

An event is an object whose members are the context attributes, the extensions and, unless it is
empty, the data. Data that is declared or taken to be JSON stands in the member `data` as the value
that it denotes; other text stands there as a text, and everything else in `data_base64`.

`document` reads data of any nesting. A reader that has room for so many arrays and objects inside
one another gives up on data that exceeds it, and the members are not made (`documentWithin`).
-/

namespace CloudEnvelope.JsonEnvelope

/-- The media type of events in JSON. -/
def mediaType : String := "application/cloudevents+json"

/-- The members that an object has for the attributes and the data. -/
def memberNames : List String :=
  ["specversion", "id", "source", "type", "time", "datacontenttype", "dataschema", "subject",
    "data", "data_base64"]

/-- The name is one of a member that no extension may have. -/
def isMemberName (name : Text) : Bool := memberNames.any fun m => (m : Text) == name

/-- What a member holds before it is written: bytes are written in base64. -/
inductive Member where
  | json (j : Json)
  | bytes (content : Bytes)

/-- The text for a value that JSON itself has no form for: bytes have one in base64, and any other
value is objected to. -/
def textFor : Value → Except Text String
  | .bytes content => .ok (Base64.encodeString content)
  | v => .error ("Object of type " ++ v.typeName ++ " is not JSON serializable")

namespace Member

/-- The member as it is written. -/
def toJson : Member → Json
  | json j => j
  | bytes content => .text (Base64.encodeString content)

/-- The member among the values of headers. -/
def toValue : Member → Value
  | json j => j.toValue
  | bytes content => .bytes content

/-- The member of a context attribute. -/
def ofAttribute : AttributeValue → Member
  | .text t => json (.text t)
  | .time t => json (.text (Text.ofChars t.rfc3339))

/-- The member of an extension. -/
def ofExtension : ExtensionValue → Member
  | .bool b => json (.bool b)
  | .int n => json (.int n)
  | .text t => json (.text t)
  | .bytes content => bytes content

end Member

/-- The members of an event under their names. -/
abbrev Document := OrderedMap Text Member

/-- The members of the context attributes. -/
def attributeMembers (e : Event) : Document :=
  OrderedMap.ofList (e.attributes.map fun a => ((a.1 : Text), Member.ofAttribute a.2))

/-- Adds the members of extensions. -/
def addExtensions (doc : Document) : List (Text × Value) → Except EncodingIssue Document
  | [] => .ok doc
  | (name, v) :: rest =>
    if isMemberName name then .error (.collidingMember name)
    else
      match ExtensionValue.ofValue name v with
      | .error issue => .error issue
      | .ok x => addExtensions (doc.insert name (.ofExtension x)) rest

/-- The member for data that is not empty. -/
def dataMember (contentType : Option Text) (data : Bytes) : Text × Json :=
  let encoded : Text × Json := ("data_base64", .text (Base64.encodeString data))
  if MediaType.isText contentType then
    match Utf8.decode? data with
    | none => encoded
    | some cs =>
      match if MediaType.isJson contentType then Json.read? cs else none with
      | some j => ("data", j)
      | none => ("data", .text (Text.ofChars cs))
  else encoded

/-- The members of an event. -/
def document (e : Event) : Except EncodingIssue Document := do
  let doc ← addExtensions (attributeMembers e) e.extensions.entries
  if e.data.isEmpty then return doc
  let (name, j) := dataMember e.dataContentType e.data
  return doc.insert name (.json j)

/-- Data that is to be read as JSON exceeds the room of the reader. -/
def dataExceeds (room : Nat) (contentType : Option Text) (data : Bytes) : Bool :=
  MediaType.isText contentType && MediaType.isJson contentType &&
    (Utf8.decode? data).any (Json.exceeds room)

/-- The members of an event, where the reader of the data has room for so many arrays and objects
inside one another. -/
def documentWithin (room : Nat) (e : Event) : Except Failure Document :=
  match document e with
  | .error issue => .error (.encoding issue)
  | .ok doc =>
    if dataExceeds room e.dataContentType e.data then .error (.fault .nestedTooDeep) else .ok doc

/-- The object of an event's members. -/
def toJson (doc : Document) : Json := .object (doc.entries.map fun m => (m.1, m.2.toJson))

/-- The bytes of an event in JSON. -/
def serialize (e : Event) : Except EncodingIssue Bytes := do
  let doc ← document e
  match ((toJson doc).write .unicode).utf8? with
  | some bytes => return bytes
  | none => throw .unencodable

end CloudEnvelope.JsonEnvelope
