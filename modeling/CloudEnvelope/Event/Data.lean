import CloudEnvelope.Failure
import CloudEnvelope.Value.Render

/-!
# The data of an event

`Value.toData` makes event data of a payload: bytes are taken as they are, a text is written in
UTF-8, nothing becomes no data, and every other value is written as its text.

A text cannot be made of every value: an integer may have too many digits, and the values inside
one another are followed as far as there is room. How much room that is depends on who asks, so it
is a number that the definitions pass down; `Value.usualRoom` is what there is when nothing of it is
used up.
-/

namespace CloudEnvelope

namespace Value

/-- How many values may lie one inside another before a text of them cannot be made. -/
def usualRoom : Nat := 1000

mutual

/-- What keeps a value from having a text where there is room for so many values inside one
another: the first objection in the order of the text. -/
def literalFault? (room : Nat) : Value → Option Fault
  | int n =>
    if room = 0 then some .nestedTooDeep
    else if Text.canSpell n then none
    else some .tooManyDigits
  | list items => if room = 0 then some .nestedTooDeep else itemsFault? (room - 1) items
  | tuple items => if room = 0 then some .nestedTooDeep else itemsFault? (room - 1) items
  | map entries => if room = 0 then some .nestedTooDeep else entriesFault? (room - 1) entries
  | _ => if room = 0 then some .nestedTooDeep else none

/-- The first objection to an item. -/
def itemsFault? (room : Nat) : List Value → Option Fault
  | [] => none
  | v :: rest => (literalFault? room v).or (itemsFault? room rest)

/-- The first objection to a key or a value inside a map. -/
def entriesFault? (room : Nat) : List (Value × Value) → Option Fault
  | [] => none
  | (k, v) :: rest =>
    ((literalFault? room k).or (literalFault? room v)).or (entriesFault? room rest)

end

/-- The data of a text. -/
def textData (t : Text) : Except Fault Bytes :=
  match t.utf8? with
  | some data => .ok data
  | none => .error .unencodableText

/-- The data of a payload, where there is room for so many values inside one another. -/
def toData (payload : Value) (room : Nat := usualRoom) : Except Fault Bytes :=
  match payload with
  | bytes b => .ok b
  | buffer b => .ok b
  | view w => .ok w.content
  | null => .ok []
  | text t => textData t
  | v =>
    match v.literalFault? room with
    | some fault => .error fault
    | none => textData v.shown

/-- The data of a payload, if it has any. -/
def toData? (payload : Value) (room : Nat := usualRoom) : Option Bytes :=
  (payload.toData room).toOption

end Value

end CloudEnvelope
