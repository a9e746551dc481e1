import CloudEnvelope.OrderedMap
import CloudEnvelope.Value.Basic

/-!
# Messages

A message is a payload and its headers, in their order and with one value for each key.
-/

namespace CloudEnvelope

/-- The headers of a message. -/
abbrev Headers := OrderedMap Text Value

/-- A message that comes into or goes out of a transformation. -/
structure Message where
  payload : Value
  headers : Headers

end CloudEnvelope
