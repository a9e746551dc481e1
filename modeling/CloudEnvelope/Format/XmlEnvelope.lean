import CloudEnvelope.Event.Basic
import CloudEnvelope.Extension
import CloudEnvelope.Text.Identifier
import CloudEnvelope.Xml.Element

/-!
# Events in XML

An event is an element whose attribute is the version and whose children are the other context
attributes, the extensions and the data, in this order. Extensions and data say what type they
have; so do those context attributes that are no plain strings. Data is always written in base64,
and an event without data has no element for it.
-/

namespace CloudEnvelope.XmlEnvelope

/-- The media type of events in XML. -/
def mediaType : String := "application/cloudevents+xml"

/-- The declaration before the element. -/
def declaration : String := "<?xml version=\"1.0\" encoding=\"UTF-8\" standalone=\"no\"?>"

/-- The attribute that says what type an element has. -/
def typed (typeName : String) : Xml.Attribute := ⟨"xsi:type", typeName⟩

/-- The name can stand for an extension: it is an identifier, hyphens taken for underscores. -/
def isElementName (name : Text) : Bool :=
  name.isIdentifier || (name.substitute '-' "_").isIdentifier

/-- The type and the text of an extension. -/
def typedText : ExtensionValue → String × Text
  | .bool b => ("xs:boolean", ExtensionValue.word b)
  | .int n => ("xs:int", Text.ofInt n)
  | .text t => ("xs:string", t)
  | .bytes content => ("xs:base64Binary", Base64.encodeString content)

/-- The type that a context attribute says it has. -/
def attributeType? (name : String) : Option String :=
  if name = "dataschema" then some "xs:anyURI"
  else if name = "time" then some "xs:dateTime"
  else none

/-- The element of a context attribute. -/
def attributeLeaf (name : String) (v : AttributeValue) : Xml.Leaf where
  name := name
  attributes := ((attributeType? name).map typed).toList
  text := match v with
    | .text t => t
    | .time t => Text.ofChars t.rfc3339

/-- The element of an extension. -/
def extensionLeaf (name : Text) (v : Value) : Except Failure Xml.Leaf :=
  if isElementName name then
    match ExtensionValue.ofValue name v with
    | .error issue => .error (.encoding issue)
    | .ok e =>
      let (typeName, text) := typedText e
      if e.isSpelled then .ok ⟨name, [typed typeName], text⟩ else .error (.fault .tooManyDigits)
  else .error (.encoding (.notElementName name))

/-- The element of the data, if there is any. -/
def dataLeaf (data : Bytes) : List Xml.Leaf :=
  if data.isEmpty then []
  else [⟨"data", [typed "xs:base64Binary"], Base64.encodeString data⟩]

/-- The element of an event. -/
def element (e : Event) : Except Failure Xml.Element := do
  let extensions ← e.extensions.entries.mapM fun entry => extensionLeaf entry.1 entry.2
  return {
    name := "event"
    attributes :=
      [⟨"xmlns:xs", "http://www.w3.org/2001/XMLSchema"⟩,
        ⟨"xmlns:xsi", "http://www.w3.org/2001/XMLSchema-instance"⟩,
        ⟨"specversion", e.specversion⟩,
        ⟨"xmlns", "http://cloudevents.io/xmlformat/V1"⟩]
    children :=
      (e.attributes.filter (·.1 ≠ "specversion")).map (fun a => attributeLeaf a.1 a.2)
        ++ extensions ++ dataLeaf e.data }

/-- The bytes of an event in XML. -/
def serialize (e : Event) : Except Failure Bytes := do
  let root ← element e
  match root.write.utf8? with
  | some bytes => return Utf8.ofString declaration ++ bytes
  | none => throw (.encoding .unencodable)

end CloudEnvelope.XmlEnvelope
