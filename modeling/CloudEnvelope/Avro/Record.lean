import CloudEnvelope.Avro.Integer
import CloudEnvelope.Calendar.DateTime
import CloudEnvelope.Extension
import CloudEnvelope.Number.Word
import CloudEnvelope.OrderedMap

/-!
# Records in Avro

The record of an event in the order in which its fields are written. Strings and bytes are written
after their length, an optional field after the branch of its union, a time as the microseconds
since the start of 1970, and the extensions as one block of a map.
-/

namespace CloudEnvelope.Avro

/-- The fields of an event's record. -/
structure Record where
  id : String
  source : String
  type : String
  dataContentType : Option Text
  dataSchema : Option Text
  subject : Option Text
  time : Option DateTime
  extensions : OrderedMap Text ExtensionValue
  data : Bytes

/-- Bytes after their length. -/
def writeBytes (content : Bytes) : Bytes := Integer.write content.length ++ content

/-- The UTF-8 form of a text after its length. -/
def writeText (t : Text) : Except Fault Bytes :=
  match t.utf8? with
  | some content => .ok (writeBytes content)
  | none => .error .unencodableText

/-- The branch of an optional field, and the field if it is there. -/
def writeOptional {α : Type} (write : α → Except Fault Bytes) : Option α → Except Fault Bytes
  | none => .ok (Integer.write 0)
  | some a => (write a).map (Integer.write 1 ++ ·)

/-- The branch of an extension and its value: integers take the narrowest branch that holds them. -/
def writeExtension : ExtensionValue → Except Fault Bytes
  | .bool b => .ok (Integer.write 0 ++ [if b then 1 else 0])
  | .int n =>
    if Word.holds 32 n then .ok (Integer.write 1 ++ Integer.write n)
    else if Word.holds 64 n then .ok (Integer.write 2 ++ Integer.write n)
    else .error .integerOutOfRange
  | .text t => (writeText t).map (Integer.write 3 ++ ·)
  | .bytes content => .ok (Integer.write 4 ++ writeBytes content)

/-- The entries of a map one after another. -/
def writeEntries : List (Text × ExtensionValue) → Except Fault Bytes
  | [] => .ok []
  | (name, e) :: rest => do
    let key ← writeText name
    let value ← writeExtension e
    let others ← writeEntries rest
    return key ++ value ++ others

/-- The entries as one block, if there are any, and the end of the map. -/
def writeMap (m : OrderedMap Text ExtensionValue) : Except Fault Bytes := do
  let entries ← writeEntries m.entries
  -- The end of the map is an empty block, so an empty map has no other.
  let count := if m.isEmpty then [] else Integer.write m.size
  return count ++ entries ++ Integer.write 0

/-- The bytes of a record. -/
def Record.write (r : Record) : Except Fault Bytes := do
  let id ← writeText r.id
  let source ← writeText r.source
  let type ← writeText r.type
  let dataContentType ← writeOptional writeText r.dataContentType
  let dataSchema ← writeOptional writeText r.dataSchema
  let subject ← writeOptional writeText r.subject
  let time ← writeOptional (fun t => .ok (Integer.write t.instant)) r.time
  let extensions ← writeMap r.extensions
  return id ++ source ++ type ++ dataContentType ++ dataSchema ++ subject ++ time ++ extensions
    ++ Integer.write 0 ++ writeBytes r.data

end CloudEnvelope.Avro
