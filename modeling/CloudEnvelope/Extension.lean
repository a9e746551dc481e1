import CloudEnvelope.Attribute.Kind
import CloudEnvelope.Base64
import CloudEnvelope.Calendar.Iso
import CloudEnvelope.Failure

/-!
# Extension values

Whatever format an event is written in, an extension is a truth value, an integer, a text or bytes.
`ExtensionValue.ofValue` says which header values are one of these; times, URLs and identifiers
become texts. `ExtensionValue.headerText` is the form of an extension where only text can stand; an
integer of too many digits has none (`ExtensionValue.isSpelled`).
-/

namespace CloudEnvelope

/-- The types of extensions. -/
inductive ExtensionValue where
  | bool (b : Bool)
  | int (n : Int)
  | text (t : Text)
  | bytes (content : Bytes)
deriving DecidableEq, Repr

namespace ExtensionValue

/-- An extension value among the values of headers. -/
def toValue : ExtensionValue → Value
  | bool b => .bool b
  | int n => .int n
  | text t => .text t
  | bytes content => .bytes content

/-- The extension value that a header value has a form for. -/
def ofValue? : Value → Option ExtensionValue
  | .bool b => some (bool b)
  | .int n => some (int n)
  | .text t => some (text t)
  | .bytes content => some (bytes content)
  | .buffer content => some (bytes content)
  | .view w => some (bytes w.content)
  | .dateTime t => some (text (Text.ofChars t.rfc3339))
  | .url u => some (text u.href)
  | .uuid u => some (text u.canonical)
  | _ => none

/-- The name is one that no extension may have. -/
def isForbidden (name : Text) : Bool := Event.forbiddenNames.any fun f => (f : Text) == name

/-- The value of the extension of a name. -/
def ofValue (name : Text) (v : Value) : Except EncodingIssue ExtensionValue :=
  if isForbidden name then .error (.reservedExtension name)
  else
    match ofValue? v with
    | some e => .ok e
    | none => .error (.unsupportedType name v.typeName)

/-- A truth value as a word. -/
def word (b : Bool) : String := if b then "true" else "false"

/-- Every extension but an integer of too many digits can be written as text. -/
def isSpelled : ExtensionValue → Bool
  | int n => Text.canSpell n
  | _ => true

/-- The form of an extension in a header: bytes are written in base64. -/
def headerText : ExtensionValue → Text
  | bool b => word b
  | int n => Text.ofInt n
  | text t => t
  | bytes content => Base64.encodeString content

/-- The text of the extension of a name. -/
def textOf (name : Text) (v : Value) : Except Failure Text :=
  match ofValue name v with
  | .error issue => .error (.encoding issue)
  | .ok e => if e.isSpelled then .ok e.headerText else .error (.fault .tooManyDigits)

/-- The extensions of a map under their names, in order. -/
def ofEntries : List (Text × Value) → Except EncodingIssue (List (Text × ExtensionValue))
  | [] => .ok []
  | (name, v) :: rest =>
    match ofValue name v with
    | .error issue => .error issue
    | .ok e => (ofEntries rest).map ((name, e) :: ·)

end ExtensionValue

end CloudEnvelope
