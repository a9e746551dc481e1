/-!
# Ordered maps

An `OrderedMap` keeps its entries in the order in which their keys first came. Writing to a key that
is there replaces the value and leaves the key in its place.

`get?_insert` says what a write does to a look-up, and `keys_insert` what it does to the order.
-/

namespace CloudEnvelope

/-- A map whose entries are in the order in which their keys first came. -/
structure OrderedMap (κ : Type) (α : Type) where
  entries : List (κ × α)
  nodup : (entries.map (·.1)).Nodup

namespace OrderedMap

variable {κ α β : Type}

/-- The map without entries. -/
def empty : OrderedMap κ α := ⟨[], by simp⟩

instance : Inhabited (OrderedMap κ α) := ⟨empty⟩

/-- The keys in order. -/
def keys (m : OrderedMap κ α) : List κ := m.entries.map (·.1)

/-- The number of entries. -/
def size (m : OrderedMap κ α) : Nat := m.entries.length

/-- The map has no entries. -/
def isEmpty (m : OrderedMap κ α) : Bool := m.entries.isEmpty

/-- The entries that satisfy a condition, in order. -/
def filter (keep : κ → α → Bool) (m : OrderedMap κ α) : OrderedMap κ α where
  entries := m.entries.filter fun e => keep e.1 e.2
  nodup := m.nodup.sublist (List.filter_sublist.map _)

/-- The same keys with new values. -/
def mapValues (f : κ → α → β) (m : OrderedMap κ α) : OrderedMap κ β where
  entries := m.entries.map fun e => (e.1, f e.1 e.2)
  nodup := by simpa [Function.comp_def] using m.nodup

variable [DecidableEq κ]

/-- The value of a key in a list of entries. -/
def lookup (k : κ) : List (κ × α) → Option α
  | [] => none
  | (k', v) :: rest => if k' = k then some v else lookup k rest

/-- Replaces the value of a key, or adds the key at the end. -/
def write (k : κ) (v : α) : List (κ × α) → List (κ × α)
  | [] => [(k, v)]
  | (k', v') :: rest => if k' = k then (k', v) :: rest else (k', v') :: write k v rest

/-- The value of a key. -/
def get? (m : OrderedMap κ α) (k : κ) : Option α := lookup k m.entries

/-- The key is there. -/
def contains (m : OrderedMap κ α) (k : κ) : Bool := m.keys.contains k

theorem map_fst_write (k : κ) (v : α) (es : List (κ × α)) :
    (write k v es).map (·.1) = if k ∈ es.map (·.1) then es.map (·.1) else es.map (·.1) ++ [k] := by
  induction es with
  | nil => simp [write]
  | cons e rest ih =>
    obtain ⟨k', v'⟩ := e
    by_cases h : k' = k
    · simp [write, h]
    · simp only [write, h, if_false, List.map_cons, ih, List.mem_cons, Ne.symm h, false_or]
      split <;> rfl

theorem lookup_write (k k' : κ) (v : α) (es : List (κ × α)) :
    lookup k' (write k v es) = if k = k' then some v else lookup k' es := by
  induction es with
  | nil => simp [write, lookup]
  | cons e rest ih =>
    obtain ⟨k'', v''⟩ := e
    by_cases h : k'' = k
    · by_cases h' : k = k' <;> simp [write, lookup, h, h']
    · by_cases h' : k'' = k'
      · subst h'
        simp [write, lookup, h, Ne.symm h]
      · simp [write, lookup, h, h', ih]

/-- Replaces the value of a key in its place, or adds the key at the end. -/
def insert (m : OrderedMap κ α) (k : κ) (v : α) : OrderedMap κ α where
  entries := write k v m.entries
  nodup := by
    rw [map_fst_write]
    split
    · exact m.nodup
    · rename_i h
      refine List.nodup_append.2 ⟨m.nodup, by simp, ?_⟩
      simp only [List.mem_singleton, ne_eq, forall_eq]
      intro a ha e
      exact h (e ▸ ha)

/-- A write changes the value of its key alone. -/
theorem get?_insert (m : OrderedMap κ α) (k k' : κ) (v : α) :
    (m.insert k v).get? k' = if k = k' then some v else m.get? k' :=
  lookup_write k k' v m.entries

/-- A write to a key that is there keeps the keys, and any other adds its key at the end. -/
theorem keys_insert (m : OrderedMap κ α) (k : κ) (v : α) :
    (m.insert k v).keys = if k ∈ m.keys then m.keys else m.keys ++ [k] :=
  map_fst_write k v m.entries

/-- The map after a list of writes. -/
def insertAll (m : OrderedMap κ α) (es : List (κ × α)) : OrderedMap κ α :=
  es.foldl (fun m e => m.insert e.1 e.2) m

/-- The map of a list of entries: of equal keys the first position and the last value count. -/
def ofList (es : List (κ × α)) : OrderedMap κ α := empty.insertAll es

end OrderedMap

end CloudEnvelope
