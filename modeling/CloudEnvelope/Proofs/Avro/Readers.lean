import CloudEnvelope.Avro.RecordReader

/-!
# The readers of a record

The reader of a record is made of readers of integers and of runs of bytes, one after another.  A
property that goes over from such parts to the whole (`Inherited`) is one of the reader of records
(`Inherited.record`).
-/

namespace CloudEnvelope.Avro

/-- What is wrong with bytes that do not start with a record: they end too early, a string is not
UTF-8, an index points past the branches of a union or a number breaks off, or a time lies outside
the calendar. -/
def recordFaults : List Fault := [.endOfData, .undecodableBytes, .indexOutOfRange, .timeOutOfRange]

/-- The property goes over from readers to the readers that are made of them.  The blocks of a map
are no fixed sequence of readers, so they are asked for on their own. -/
structure Inherited (P : ∀ {α : Type}, Reader α → Prop) : Prop where
  pure : ∀ {α : Type} (a : α), P (Pure.pure a : Reader α)
  throw : ∀ {α : Type} {fault : Fault}, fault ∈ recordFaults →
    P (MonadExcept.throw fault : Reader α)
  bind : ∀ {α β : Type} {r : Reader α} {f : α → Reader β}, P r → (∀ a, P (f a)) → P (r >>= f)
  integer : P Integer.read
  content : ∀ size, P (readContent size)
  blocks : (∀ count, P (readBlock count)) → P readBlocks

namespace Inherited

variable {P : ∀ {α : Type}, Reader α → Prop} {α β : Type}

/-- What is made of the value that is read is no reader of its own. -/
theorem bind_pure (h : Inherited P) {r : Reader α} {f : α → β} (hr : P r) :
    P (r >>= fun a => Pure.pure (f a)) :=
  h.bind hr fun a => h.pure (f a)

theorem bytes (h : Inherited P) : P readBytes := h.bind h.integer h.content

theorem string (h : Inherited P) : P readString := by
  refine h.bind h.bytes fun content => ?_
  split
  · exact h.pure _
  · exact h.throw (by decide)

theorem text (h : Inherited P) : P readText := h.bind_pure h.string

theorem branch (h : Inherited P) (branches : Nat) : P (readBranch branches) := by
  refine h.bind h.integer fun n => ?_
  split
  · exact h.pure _
  · split
    · exact h.pure _
    · exact h.throw (by decide)

theorem optional (h : Inherited P) {r : Reader α} (hr : P r) : P (readOptional r) := by
  refine h.bind (h.branch 2) fun n => ?_
  split
  · exact h.pure _
  · exact h.bind_pure hr

theorem time (h : Inherited P) : P readTime := by
  refine h.bind h.integer fun n => ?_
  split
  · exact h.pure _
  · exact h.throw (by decide)

theorem extension (h : Inherited P) : P readExtension := by
  refine h.bind (h.branch 5) fun n => ?_
  split
  · exact h.bind_pure (h.bind_pure (h.content 1))
  · exact h.bind_pure h.integer
  · exact h.bind_pure h.integer
  · exact h.bind_pure h.text
  · exact h.bind_pure h.bytes

theorem entries (h : Inherited P) (count : Nat) : P (readEntries count) := by
  induction count with
  | zero => exact h.pure _
  | succ count ih =>
    exact h.bind h.text fun _ => h.bind h.extension fun _ => h.bind_pure ih

theorem block (h : Inherited P) (count : Int) : P (readBlock count) := by
  unfold readBlock
  split
  · exact h.bind h.integer fun _ => h.entries _
  · exact h.entries _

theorem map (h : Inherited P) : P readMap :=
  h.bind_pure (h.blocks h.block)

theorem data (h : Inherited P) : P readData := by
  refine h.bind (h.branch 2) fun n => ?_
  split
  · exact h.bytes
  · exact h.pure _

/-- A property that goes over from parts to the whole is one of the reader of records. -/
theorem record (h : Inherited P) : P Record.read := by
  refine h.bind h.string fun id => ?_
  refine h.bind h.string fun source => ?_
  refine h.bind h.string fun type => ?_
  refine h.bind (h.optional h.text) fun dataContentType => ?_
  refine h.bind (h.optional h.text) fun dataSchema => ?_
  refine h.bind (h.optional h.text) fun subject => ?_
  refine h.bind (h.optional h.time) fun time => ?_
  refine h.bind h.map fun extensions => ?_
  exact h.bind_pure h.data

end Inherited

end CloudEnvelope.Avro
