import CloudEnvelope.Event.Validation
import CloudEnvelope.Format.JsonEnvelope
import CloudEnvelope.Value.Render

/-!
# Reading events in JSON

The members are looked at in a fixed order, and the first fault counts: the version, the data, the
mandatory attributes, and then everything else at once. Members that are no attribute and no data
are extensions, whatever they hold.
-/

namespace CloudEnvelope.JsonEnvelope

/-- The failure of a text that is not an event in JSON. -/
def malformed (f : Fault) : Failure := .encoding (.invalidJson f)

/-- The members of an object of the current version. -/
def members (j : Json) : Except Failure (List (Text × Json)) :=
  match j with
  | .object ms =>
    match Json.member? "specversion" ms with
    | some (.text t) =>
      if t = Event.currentVersion then .ok ms
      else .error (malformed (.unsupportedVersion t.quoted))
    | some v => .error (malformed (.unsupportedVersion v.toValue.literal))
    | none => .error (malformed (.unsupportedVersion Value.null.literal))
  | _ => .error (malformed .notAnObject)

/-- The bytes of a member in base64. -/
def base64Data : Json → Except Fault Bytes
  | .text t =>
    match t.scalars? with
    | some cs =>
      if cs.all (·.toNat < 0x80) then (Base64.decode? cs).elim (.error .malformedBase64) .ok
      else .error .nonAsciiBase64
    | none => .error .nonAsciiBase64
  | _ => .error .noBase64Text

/-- The bytes of a value that is written again, in ASCII. -/
def writtenData (j : Json) : Except Failure Bytes :=
  match (j.write .ascii).utf8? with
  | some bytes => .ok bytes
  | none => .error (malformed .unencodableText)

/-- The bytes of a text in UTF-8. -/
def textData (t : Text) : Except Failure Bytes :=
  match t.utf8? with
  | some bytes => .ok bytes
  | none => .error (malformed .unencodableText)

/-- The bytes of the member `data`. A text stands for itself unless its content type is JSON. -/
def plainData (contentType : Json) : Json → Except Failure Bytes
  | .text t =>
    match contentType with
    -- Without a content type a text is taken for itself, although other values are taken for JSON.
    | .null => textData t
    | .text mediaType =>
      if MediaType.isJson (some mediaType) then writtenData (.text t) else textData t
    | _ => .error (.fault .contentTypeNotText)
  | j => writtenData j

/-- The data of an object: the member in base64 comes first. -/
def data (ms : List (Text × Json)) (contentType : Json) : Except Failure Bytes :=
  match Json.member? "data_base64" ms, Json.member? "data" ms with
  | some j, _ => (base64Data j).mapError malformed
  | none, some j => plainData contentType j
  | none, none => .ok []

/-- A member that has to be there. -/
def demand (ms : List (Text × Json)) (name : String) : Except Failure Value :=
  match Json.member? name ms with
  | some j => .ok j.toValue
  | none => .error (malformed (.missingName name))

/-- The members that are extensions. -/
def extensions (ms : List (Text × Json)) : List (Value × Value) :=
  (ms.filter fun m => !isMemberName m.1).map fun m => (.text m.1, m.2.toValue)

/-- The event of an object. -/
def ofJson (j : Json) : Except Failure Event := do
  let ms ← members j
  let optional (name : String) : Json := (Json.member? name ms).getD .null
  let contentType := optional "datacontenttype"
  let content ← data ms contentType
  let id ← demand ms "id"
  let source ← demand ms "source"
  let type ← demand ms "type"
  let draft : EventDraft :=
    { id := some id
      source := some source
      type := some type
      time := some (optional "time").toValue
      dataContentType := some contentType.toValue
      dataSchema := some (optional "dataschema").toValue
      subject := some (optional "subject").toValue
      data := some (.bytes content)
      extensions := extensions ms }
  match Event.validate draft with
  | .ok e => return e
  | .error problems => throw (malformed (.invalid problems))

/-- The event of bytes in JSON. -/
def deserialize (raw : Bytes) : Except Failure Event := do
  match Utf8.decode? raw with
  | none => throw (malformed .undecodableBytes)
  | some cs =>
    match Json.read? cs with
    | none => throw (malformed .malformedJson)
    | some j => ofJson j

end CloudEnvelope.JsonEnvelope
