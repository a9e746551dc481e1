import CloudEnvelope.Event.Basic
import CloudEnvelope.Extension
import CloudEnvelope.Format.Basic
import CloudEnvelope.Message

/-!
# Message converters

A `MessageConverter` frames an event as a message on its own: it is given the event and the headers
that pass through. In binary mode the attributes and extensions travel as headers and the payload is
the data; in structured mode the payload is the whole event in some format.
-/

namespace CloudEnvelope

/-- A way to frame events as messages; one that cannot frame an event gives no message. -/
structure MessageConverter where
  name : Text
  convert : Event → Headers → Except Failure (Option Message)

namespace MessageConverter

/-- The header of the content type. -/
def contentTypeHeader : Text := "content-type"

/-- What the headers of attributes start with unless told otherwise. -/
def defaultPrefix : Text := "ce-"

/-- The header of a context attribute. -/
def attributeHeader (start : Text) (a : String × AttributeValue) : Text × Value :=
  let (name, v) := a
  match v with
  | .time t => (start ++ name, .text (Text.ofChars t.rfc3339))
  | .text t => (if name = "datacontenttype" then contentTypeHeader else start ++ name, .text t)

/-- The headers of extensions. -/
def extensionHeaders (start : Text) : List (Text × Value) → Except Failure (List (Text × Value))
  | [] => .ok []
  | (name, v) :: rest =>
    match ExtensionValue.textOf name v with
    | .error failure => .error failure
    | .ok t => (extensionHeaders start rest).map ((start ++ name, .text t) :: ·)

/-- The message of an event whose attributes are headers. -/
def frameBinary (start : Text) (e : Event) (headers : Headers) : Except Failure Message := do
  let extensions ← extensionHeaders start e.extensions.entries
  return {
    payload := .bytes e.data
    headers := (headers.insertAll (e.attributes.map (attributeHeader start))).insertAll extensions }

/-- The message of an event in a format. -/
def frameStructured (f : EventFormat) (e : Event) (headers : Headers) : Except Failure Message := do
  let payload ← f.serialize e
  return {
    payload := .bytes payload
    headers := headers.insert contentTypeHeader (.text f.mediaType) }

/-- Binary mode, with a start of header names. -/
def binary (start : Text) : MessageConverter where
  name := "BinaryModeConverter"
  convert e headers := (frameBinary start e headers).map some

/-- Structured mode in a format. -/
def structured (f : EventFormat) : MessageConverter where
  name := "StructuredModeConverter"
  convert e headers := (frameStructured f e headers).map some

end MessageConverter

end CloudEnvelope
