import CloudEnvelope.Json.Reader

/-!
# The nesting of JSON texts

A reader that follows arrays and objects into one another has room for so many of them. A text
exceeds the room when the reader comes upon a bracket or a brace that opens one more, before
anything in the text has made it stop (`Json.exceeds`). The recursion is that of `Json.value?`; a
bracket that is never closed takes two of its steps, so here twice the length of the text bounds
them.
-/

namespace CloudEnvelope.Json

mutual

/-- A value has more arrays and objects inside one another than there is room for. -/
def valueExceeds : Nat → Nat → List Char → Bool
  | _, 0, _ => false
  | room, fuel + 1, cs =>
    match cs, room with
    | '[' :: _, 0 => true
    | '[' :: rest, room + 1 =>
      match skipBlanks rest with
      | ']' :: _ => false
      | rest => itemsExceed room fuel rest
    | '\x7b' :: _, 0 => true
    | '\x7b' :: rest, room + 1 =>
      match skipBlanks rest with
      | '\x7d' :: _ => false
      | rest => membersExceed room fuel rest
    | _, _ => false

/-- An item exceeds the room, and every item before it is read. -/
def itemsExceed : Nat → Nat → List Char → Bool
  | _, 0, _ => false
  | room, fuel + 1, cs =>
    valueExceeds room fuel cs ||
      match value? fuel cs with
      | some (_, rest) =>
        match skipBlanks rest with
        | ',' :: rest => itemsExceed room fuel (skipBlanks rest)
        | _ => false
      | none => false

/-- The value of a member exceeds the room, and every member before it is read. -/
def membersExceed : Nat → Nat → List Char → Bool
  | _, 0, _ => false
  | room, fuel + 1, cs =>
    match cs with
    | '"' :: rest =>
      match string? rest with
      | some (_, rest) =>
        match skipBlanks rest with
        | ':' :: rest =>
          valueExceeds room fuel (skipBlanks rest) ||
            match value? fuel (skipBlanks rest) with
            | some (_, rest) =>
              match skipBlanks rest with
              | ',' :: rest => membersExceed room fuel (skipBlanks rest)
              | _ => false
            | none => false
        | _ => false
      | none => false
    | _ => false

end

/-- A text has more arrays and objects inside one another than there is room for. -/
def exceeds (room : Nat) (cs : List Char) : Bool :=
  valueExceeds room (2 * cs.length + 1) (skipBlanks cs)

end CloudEnvelope.Json
