import CloudEnvelope.Avro.Record

/-!
# Reading records in Avro

`Record.read` takes a record from the start of some bytes. The branch of a union may be counted from
its end by a negative number, a map may come in several blocks, and a block may say how long it is,
which tells nothing new. Of equal names in a map the first position and the last value count. An
integer is taken as it is, whatever branch it stands in.

That a map comes to an end rests on `Shrinks`: no reader leaves more than it was given, and a block
starts with an integer, which takes at least one byte.
-/

namespace CloudEnvelope.Avro

/-- The reader leaves no more than it was given. -/
def Shrinks {α : Type} (r : Reader α) : Prop :=
  ∀ ⦃input a rest⦄, r input = .ok (a, rest) → rest.length ≤ input.length

namespace Shrinks

variable {α β : Type}

theorem pure (a : α) : Shrinks (Pure.pure a : Reader α) := by
  intro input b rest h
  cases h
  exact Nat.le_refl _

theorem throw (f : Fault) : Shrinks (MonadExcept.throw f : Reader α) := by
  intro input a rest h
  cases h

theorem bind {r : Reader α} {f : α → Reader β} (hr : Shrinks r) (hf : ∀ a, Shrinks (f a)) :
    Shrinks (r >>= f) := by
  intro input b rest h
  change (r input >>= fun p => f p.1 p.2) = .ok (b, rest) at h
  cases h' : r input with
  | error e =>
    rw [h'] at h
    cases h
  | ok p =>
    rw [h'] at h
    obtain ⟨a, rest'⟩ := p
    exact Nat.le_trans (hf a h) (hr h')

theorem integer : Shrinks Integer.read := fun _ _ _ h => Nat.le_of_lt (Integer.length_lt_of_read h)

end Shrinks

/-- Takes a number of bytes. -/
def readContent (size : Int) : Reader Bytes := fun input =>
  if 0 ≤ size ∧ size ≤ input.length then .ok (input.take size.toNat, input.drop size.toNat)
  else .error .endOfData

/-- Reads bytes after their length. -/
def readBytes : Reader Bytes := do readContent (← Integer.read)

/-- Reads a string in UTF-8 after its length. -/
def readString : Reader String := do
  let content ← readBytes
  match Utf8.toString? content with
  | some s => return s
  | none => throw .undecodableBytes

/-- Reads a text in UTF-8 after its length. -/
def readText : Reader Text := do return Text.ofString (← readString)

/-- Reads a truth value: a byte that is not zero is true. -/
def readBool : Reader Bool := do return (← readContent 1).any (· ≠ 0)

/-- Reads the branch of a union; a negative number counts from the last branch. -/
def readBranch (branches : Nat) : Reader Nat := do
  let n ← Integer.read
  -- A branch is an index into a list, and an index may count from either end.
  if 0 ≤ n ∧ n < branches then return n.toNat
  else if n < 0 ∧ -(branches : Int) ≤ n then return (n + branches).toNat
  else throw .indexOutOfRange

/-- Reads an optional field. -/
def readOptional {α : Type} (read : Reader α) : Reader (Option α) := do
  if (← readBranch 2) = 0 then return none else return some (← read)

/-- Reads the time of a number of microseconds. -/
def readTime : Reader DateTime := do
  match DateTime.ofInstant? (← Integer.read) with
  | some t => return t
  | none => throw .timeOutOfRange

/-- Reads an extension. -/
def readExtension : Reader ExtensionValue := do
  match ← readBranch 5 with
  | 0 => return .bool (← readBool)
  | 1 => return .int (← Integer.read)
  | 2 => return .int (← Integer.read)
  | 3 => return .text (← readText)
  | _ => return .bytes (← readBytes)

/-- Reads a number of entries of a map. -/
def readEntries : Nat → Reader (List (Text × ExtensionValue))
  | 0 => return []
  | count + 1 => do
    let name ← readText
    let e ← readExtension
    let rest ← readEntries count
    return (name, e) :: rest

/-- Reads the entries of a block whose count is known; a negative count comes before the length of
the block. -/
def readBlock (count : Int) : Reader (List (Text × ExtensionValue)) := do
  if count < 0 then
    let _ ← Integer.read
    readEntries count.natAbs
  else readEntries count.natAbs

theorem shrinks_readContent (size : Int) : Shrinks (readContent size) := by
  intro input content rest h
  unfold readContent at h
  split at h
  · cases h
    simp
  · cases h

theorem shrinks_readBytes : Shrinks readBytes := .bind .integer shrinks_readContent

theorem shrinks_readString : Shrinks readString := by
  refine .bind shrinks_readBytes fun content => ?_
  split
  · exact .pure _
  · exact .throw _

theorem shrinks_readText : Shrinks readText := .bind shrinks_readString fun _ => .pure _

theorem shrinks_readBranch (branches : Nat) : Shrinks (readBranch branches) := by
  refine .bind .integer fun n => ?_
  split
  · exact .pure _
  · split
    · exact .pure _
    · exact .throw _

theorem shrinks_readExtension : Shrinks readExtension := by
  refine .bind (shrinks_readBranch 5) fun n => ?_
  split
  · exact .bind (.bind (shrinks_readContent 1) fun _ => .pure _) fun _ => .pure _
  · exact .bind .integer fun _ => .pure _
  · exact .bind .integer fun _ => .pure _
  · exact .bind shrinks_readText fun _ => .pure _
  · exact .bind shrinks_readBytes fun _ => .pure _

theorem shrinks_readEntries (count : Nat) : Shrinks (readEntries count) := by
  induction count with
  | zero => exact .pure _
  | succ count ih =>
    exact .bind shrinks_readText fun _ => .bind shrinks_readExtension fun _ =>
      .bind ih fun _ => .pure _

theorem shrinks_readBlock (count : Int) : Shrinks (readBlock count) := by
  unfold readBlock
  split
  · exact .bind .integer fun _ => shrinks_readEntries _
  · exact shrinks_readEntries _

/-- The entries of all blocks up to the empty one. -/
def readBlocks (input : Bytes) : Except Fault (List (Text × ExtensionValue) × Bytes) :=
  match h : Integer.read input with
  | .error f => .error f
  | .ok (count, rest) =>
    if count = 0 then .ok ([], rest)
    else
      match h' : readBlock count rest with
      | .error f => .error f
      | .ok (entries, rest') =>
        have : rest'.length < input.length :=
          Nat.lt_of_le_of_lt (shrinks_readBlock count h') (Integer.length_lt_of_read h)
        match readBlocks rest' with
        | .error f => .error f
        | .ok (others, final) => .ok (entries ++ others, final)
termination_by input.length

/-- Reads a map. -/
def readMap : Reader (OrderedMap Text ExtensionValue) := do
  let entries ← readBlocks
  return OrderedMap.ofList entries

/-- Reads the data; an event without data has none. -/
def readData : Reader Bytes := do
  if (← readBranch 2) = 0 then readBytes else return []

/-- Reads a record. -/
def Record.read : Reader Record := do
  let id ← readString
  let source ← readString
  let type ← readString
  let dataContentType ← readOptional readText
  let dataSchema ← readOptional readText
  let subject ← readOptional readText
  let time ← readOptional readTime
  let extensions ← readMap
  let data ← readData
  return { id, source, type, dataContentType, dataSchema, subject, time, extensions, data }

end CloudEnvelope.Avro
