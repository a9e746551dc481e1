import CloudEnvelope.Calendar.DateTime
import CloudEnvelope.Number.Binary64
import CloudEnvelope.Text.Utf8
import CloudEnvelope.Uri.Url

/-!
# Header values and payloads

A message carries values of many kinds in its headers and as its payload. `Value` lists them; what
an event may hold of them is decided elsewhere. `Value.sameAs` is equality as receivers of values
see it: numbers of different kinds are compared by what they count, bytes by their content whatever
holds them, maps without regard to order.

The values are of the built-in kinds themselves. Members of an enumeration whose members are also
texts or integers are left aside.
-/

namespace CloudEnvelope

/-- A universally unique identifier. -/
structure Uuid where
  bits : BitVec 128
deriving DecidableEq, Repr

/-- A window on bytes that are held elsewhere, and where in memory the window itself lies. -/
structure MemoryView where
  content : Bytes
  address : Nat
deriving DecidableEq, Repr

namespace MemoryView

/-- A window is used as the bytes that it shows. -/
instance : CoeOut MemoryView Bytes := ⟨content⟩

/-- Where a window lies shows in its text alone; it may be left out where no text is made. -/
instance : Coe Bytes MemoryView := ⟨fun content => ⟨content, 0⟩⟩

end MemoryView

/-- What a header or a payload can be. -/
inductive Value where
  | null
  | bool (b : Bool)
  | int (n : Int)
  | float (x : Binary64)
  | text (t : Text)
  | bytes (content : Bytes)
  /-- Bytes that may change. -/
  | buffer (content : Bytes)
  | view (window : MemoryView)
  | list (items : List Value)
  | tuple (items : List Value)
  | map (entries : List (Value × Value))
  | dateTime (t : DateTime)
  | date (d : Date)
  | uuid (u : Uuid)
  | url (u : Url)
  /-- A value of a foreign kind, of which only its text is known. -/
  | custom (shown : Text)

namespace Value

instance : Inhabited Value := ⟨null⟩

/-- The name of a value's kind, as messages give it. -/
def typeName : Value → Text
  | null => "NoneType"
  | bool _ => "bool"
  | int _ => "int"
  | float _ => "float"
  | text _ => "str"
  | bytes _ => "bytes"
  | buffer _ => "bytearray"
  | view _ => "memoryview"
  | list _ => "list"
  | tuple _ => "tuple"
  | map _ => "dict"
  | dateTime _ => "datetime"
  | date _ => "date"
  | uuid _ => "UUID"
  | url _ => "AnyUrl"
  | custom _ => "Custom"

/-- The integer that a truth value or an integer counts as. -/
def toInt? : Value → Option Int
  | bool b => some b.toNat
  | int n => some n
  | _ => none

/-- The content of a value that holds bytes. -/
def toBytes? : Value → Option Bytes
  | bytes b => some b
  | buffer b => some b
  | view w => some w.content
  | _ => none

/-- Equality of values that hold no other values. -/
def sameLeaf : Value → Value → Bool
  | null, null => true
  | float x, float y => x.equals y
  | float x, v => v.toInt?.any (x.toInt? == some ·)
  | v, float y => v.toInt?.any (y.toInt? == some ·)
  | text s, text t => s == t
  | dateTime s, dateTime t => s.equals t
  | date c, date d => c == d
  | uuid u, uuid v => u == v
  | url u, url v => u == v
  | custom s, custom t => s == t
  | v, w =>
    match v.toInt?, w.toInt? with
    | some m, some n => m == n
    | _, _ =>
      match v.toBytes?, w.toBytes? with
      | some a, some b => a == b
      | _, _ => false

mutual

/-- Equality of values. -/
def sameAs : Value → Value → Bool
  | list xs, list ys => sameItems xs ys
  | tuple xs, tuple ys => sameItems xs ys
  | map es, map fs => es.length == fs.length && sameEntries es fs
  | v, w => sameLeaf v w

/-- Equality item by item. -/
def sameItems : List Value → List Value → Bool
  | [], [] => true
  | x :: xs, y :: ys => sameAs x y && sameItems xs ys
  | _, _ => false

/-- Every entry has its equal among others. -/
def sameEntries : List (Value × Value) → List (Value × Value) → Bool
  | [], _ => true
  | (k, v) :: rest, fs => fs.any (fun f => sameAs k f.1 && sameAs v f.2) && sameEntries rest fs

end

/-- The map of a list of entries: of equal keys the first position and the last value count. -/
def mapOfList (es : List (Value × Value)) : Value :=
  map (es.foldl write [])
where
  /-- Replaces the value of an equal key, or adds the entry at the end. -/
  write : List (Value × Value) → Value × Value → List (Value × Value)
    | [], e => [e]
    | f :: rest, e => if f.1.sameAs e.1 then (f.1, e.2) :: rest else f :: write rest e

end Value

end CloudEnvelope
