import CloudEnvelope.Value.Basic

/-!
# JSON values

The values that a JSON text denotes. Numbers without a fraction and an exponent are integers of any
size; others are binary floating-point numbers, the infinities and not a number included. Texts may
hold lone surrogates, which an escape can denote. The members of an object are in order, and names
are told apart: `Json.distinctNames` says so at every level.
-/

namespace CloudEnvelope

/-- What a JSON text denotes. -/
inductive Json where
  | null
  | bool (b : Bool)
  | int (n : Int)
  | float (x : Binary64)
  | text (t : Text)
  | array (items : List Json)
  | object (members : List (Text × Json))

namespace Json

instance : Inhabited Json := ⟨null⟩

/-! ### Equality -/

mutual

/-- Two values are built alike. -/
def same : Json → Json → Bool
  | null, null => true
  | bool b, bool b' => decide (b = b')
  | int n, int n' => decide (n = n')
  | float x, float x' => decide (x = x')
  | text t, text t' => decide (t = t')
  | array items, array items' => sameItems items items'
  | object members, object members' => sameMembers members members'
  | _, _ => false

/-- Items are built alike, one by one. -/
def sameItems : List Json → List Json → Bool
  | [], [] => true
  | j :: rest, j' :: rest' => same j j' && sameItems rest rest'
  | _, _ => false

/-- Members have the same names and values that are built alike, one by one. -/
def sameMembers : List (Text × Json) → List (Text × Json) → Bool
  | [], [] => true
  | (name, j) :: rest, (name', j') :: rest' =>
    decide (name = name') && (same j j' && sameMembers rest rest')
  | _, _ => false

end

mutual

theorem same_iff (j j' : Json) : same j j' ↔ j = j' := by
  match j with
  | null | bool _ | int _ | float _ | text _ => cases j' <;> simp [same]
  | array items => cases j' <;> simp [same, sameItems_iff items]
  | object members => cases j' <;> simp [same, sameMembers_iff members]

theorem sameItems_iff (items items' : List Json) : sameItems items items' ↔ items = items' := by
  match items with
  | [] => cases items' <;> simp [sameItems]
  | j :: rest => cases items' <;> simp [sameItems, same_iff j, sameItems_iff rest]

theorem sameMembers_iff (members members' : List (Text × Json)) :
    sameMembers members members' ↔ members = members' := by
  match members with
  | [] => cases members' <;> simp [sameMembers]
  | (name, j) :: rest =>
    cases members' <;>
      simp [sameMembers, same_iff j, sameMembers_iff rest, Prod.ext_iff, and_assoc]

end

instance : DecidableEq Json := fun j j' => decidable_of_iff (same j j') (same_iff j j')

/-! ### Members -/

/-- The value of a member. -/
def member? (name : Text) : List (Text × Json) → Option Json
  | [] => none
  | (name', j) :: rest => if name' = name then some j else member? name rest

/-- Replaces the value of a member in its place, or adds the member at the end. -/
def writeMember (members : List (Text × Json)) (name : Text) (j : Json) : List (Text × Json) :=
  match members with
  | [] => [(name, j)]
  | (name', j') :: rest =>
    if name' = name then (name', j) :: rest else (name', j') :: writeMember rest name j

/-- The object of a list of members: of equal names the first position and the last value count. -/
def objectOfList (members : List (Text × Json)) : Json :=
  object (members.foldl (fun ms m => writeMember ms m.1 m.2) [])

mutual

/-- The names of each object's members differ, at every level. -/
def distinctNames : Json → Prop
  | array items => allDistinct items
  | object members => (members.map (·.1)).Nodup ∧ membersDistinct members
  | _ => True

/-- The names differ in every item. -/
def allDistinct : List Json → Prop
  | [] => True
  | j :: rest => distinctNames j ∧ allDistinct rest

/-- The names differ in the value of every member. -/
def membersDistinct : List (Text × Json) → Prop
  | [] => True
  | (_, j) :: rest => distinctNames j ∧ membersDistinct rest

end

/-! ### Values of headers -/

mutual

/-- A JSON value among the values of headers. -/
def toValue : Json → Value
  | null => .null
  | bool b => .bool b
  | int n => .int n
  | float x => .float x
  | text t => .text t
  | array items => .list (toValues items)
  | object members => .map (toEntries members)

/-- Every item among the values of headers. -/
def toValues : List Json → List Value
  | [] => []
  | j :: rest => toValue j :: toValues rest

/-- Every member as an entry of a map. -/
def toEntries : List (Text × Json) → List (Value × Value)
  | [] => []
  | (name, j) :: rest => (.text name, toValue j) :: toEntries rest

end

end Json

end CloudEnvelope
