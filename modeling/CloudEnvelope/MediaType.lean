import CloudEnvelope.Text.Blank
import CloudEnvelope.Text.Lowercase

/-!
# Media types

Media types are compared in lower case and without parameters: `MediaType.normalize`. A structured
type such as `application/cloudevents+json` names the syntax that it is written in behind the last
plus sign of its subtype.
-/

namespace CloudEnvelope.MediaType

/-- The part before the parameters, without surrounding blanks, in lower case. -/
def normalize (mediaType : Text) : Text := (mediaType.splitFirst ';').1.trim.lowercase

/-- The top-level type and the subtype; a type without a slash has no subtype. -/
def split (mediaType : Text) : Text × Text :=
  let (top, subtype) := mediaType.splitFirst '/'
  (top, subtype.getD [])

/-- The top-level type of a structured type, and the syntax that it is written in. -/
def structured? (mediaType : Text) : Option (Text × Text) :=
  let (top, subtype) := split mediaType
  (subtype.afterLast? '+').map fun syntaxName => (top, syntaxName)

/-- Data of the type is JSON; data without a type is. -/
def isJson : Option Text → Bool
  | none => true
  | some mediaType =>
    let base := normalize mediaType
    base == "application/json" || base.endsWith "+json" || base == "text/json"

/-- Data of the type is text. -/
def isText : Option Text → Bool
  | none => true
  | some mediaType =>
    let base := normalize mediaType
    isJson (some mediaType) || base.startsWith "text/" || base == "application/xml"
      || base.endsWith "+xml"

end CloudEnvelope.MediaType
