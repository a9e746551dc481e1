import CloudEnvelope.Proofs.Avro.Readers
import CloudEnvelope.Proofs.Avro.Record
import Mathlib.Tactic.Common

/-!
# Faults of records

`Record.raises_read`: bytes that do not start with a record have one of four faults
(`recordFaults`).  A reader raises no others when the readers that it is made of raise none, and the
blocks of a map raise none by induction on them.

One of the faults is found in what is written: a number stands for every time, but the reader takes
only those of the years 1 to 9999 in UTC (`Record.refuses_write`).
-/

namespace CloudEnvelope.Avro

/-- The reader raises no faults but those of records. -/
def Raises {α : Type} (r : Reader α) : Prop :=
  ∀ input, (r input).FailsWith (· ∈ recordFaults)

theorem failsWith_readGroups (input : Bytes) :
    (Integer.readGroups.go input).FailsWith (· ∈ recordFaults) := by
  induction input with
  | nil => exact .error (by decide)
  | cons b rest ih =>
    rw [Integer.readGroups.go]
    split
    · exact .ok _
    · split
      · exact .ok _
      · rename_i hrest
        exact .error (ih hrest)

theorem raises_integer : Raises Integer.read := by
  intro input
  unfold Integer.read
  split
  · exact .error (by decide)
  · split
    · exact .ok _
    · rename_i hgroups
      exact .error (failsWith_readGroups input hgroups)

theorem raises_readContent (size : Int) : Raises (readContent size) := by
  intro input
  unfold readContent
  split
  · exact .ok _
  · exact .error (by decide)

/-- The blocks of a map raise no faults but those of a block and of its count. -/
theorem raises_readBlocks (hblock : ∀ count, Raises (readBlock count)) : Raises readBlocks := by
  intro input
  fun_induction readBlocks input with
  | case1 input fault hcount => exact .error (raises_integer input hcount)
  | case2 => exact .ok _
  | case3 input count rest hcount hne fault hrest =>
    exact .error (hblock count rest hrest)
  | case4 input count rest hcount hne entries rest' hrest hlt fault hothers ih =>
    exact .error (ih hothers)
  | case5 => exact .ok _

theorem inherited_raises : Inherited @Raises where
  pure _ := fun _ => .ok _
  throw hfault := fun _ => .error hfault
  bind {α β r f} hr hf := by
    intro input
    show ((r input >>= fun p => f p.1 p.2) : Except Fault (β × Bytes)).FailsWith _
    exact (hr input).bind fun p => hf p.1 p.2
  integer := raises_integer
  content := raises_readContent
  blocks := raises_readBlocks

/-- Bytes that do not start with a record have one of the faults of records. -/
theorem Record.raises_read : Raises Record.read := inherited_raises.record

/-! ### Times outside the calendar -/

/-- The reader finds the fault in its bytes, whatever follows them. -/
def Refuses {α : Type} (r : Reader α) (bytes : Bytes) (fault : Fault) : Prop :=
  ∀ rest, r (bytes ++ rest) = .error fault

section

variable {α β : Type} {r : Reader α} {f : α → Reader β} {as bs : Bytes} {a : α} {fault : Fault}

/-- Bytes that follow are among those that do not matter. -/
theorem Refuses.append (h : Refuses r as fault) : Refuses r (as ++ bs) fault := by
  intro rest
  rw [List.append_assoc]
  exact h (bs ++ rest)

/-- Nothing is read after what is refused. -/
theorem Refuses.bind (h : Refuses r as fault) : Refuses (r >>= f) as fault := by
  intro rest
  show (r (as ++ rest) >>= fun p => f p.1 p.2) = _
  rw [h]
  rfl

/-- What is refused after other bytes have been read is refused with them. -/
theorem Reads.bind_refuses (hr : Reads r as a) (hf : Refuses (f a) bs fault) :
    Refuses (r >>= f) (as ++ bs) fault := by
  intro rest
  show (r (as ++ bs ++ rest) >>= fun p => f p.1 p.2) = _
  rw [List.append_assoc, hr]
  exact hf rest

/-- The value that is read may be what is refused. -/
theorem Reads.bind_throw (hr : Reads r as a) (hf : f a = MonadExcept.throw fault) :
    Refuses (r >>= f) as fault := by
  intro rest
  show (r (as ++ rest) >>= fun p => f p.1 p.2) = _
  rw [hr]
  exact congrFun hf rest

end

/-- A number is written for every time, but none outside the calendar is read as one. -/
theorem refuses_time {t : DateTime} (h : ¬DateTime.InCalendar t.instant) :
    Refuses readTime (Integer.write t.instant) .timeOutOfRange := by
  have hholds : Word.holds 64 t.instant := by
    obtain ⟨hlo, hhi⟩ := t.instant_bounds
    exact Word.holds_iff.mpr ⟨by omega, by omega⟩
  refine (Integer.reads_write hholds).bind_throw ?_
  rw [DateTime.ofInstant?_eq_none h]

theorem refuses_optional {α : Type} {r : Reader α} {bytes : Bytes} {fault : Fault}
    (h : Refuses r bytes fault) : Refuses (readOptional r) (Integer.write 1 ++ bytes) fault :=
  (reads_branch (n := 1) (by decide) (by decide)).bind_refuses h.bind

/-- A record with a time outside the calendar is refused for it, whenever it is written. -/
theorem Record.refuses_write {r : Record} {t : DateTime} (ht : r.time = some t)
    (htime : ¬DateTime.InCalendar t.instant) {bytes : Bytes} (h : r.write = .ok bytes)
    (hlen : bytes.length < 2 ^ 63) : Refuses Record.read bytes .timeOutOfRange := by
  simp only [Record.write, ht, Except.bind_eq_ok_iff] at h
  obtain ⟨id, hid, source, hsource, type, htype, contentType, hcontentType, schema, hschema,
    subject, hsubject, _, ⟨⟩, map, -, ⟨⟩⟩ := h
  simp only [List.length_append] at hlen
  simp only [List.append_assoc]
  refine (reads_writeText_string hid (by omega)).bind_refuses ?_
  refine (reads_writeText_string hsource (by omega)).bind_refuses ?_
  refine (reads_writeText_string htype (by omega)).bind_refuses ?_
  refine (reads_writeOptional_text hcontentType (by omega)).bind_refuses ?_
  refine (reads_writeOptional_text hschema (by omega)).bind_refuses ?_
  refine (reads_writeOptional_text hsubject (by omega)).bind_refuses ?_
  rw [← List.append_assoc (Integer.write 1)]
  exact (refuses_optional (refuses_time htime)).bind.append

end CloudEnvelope.Avro
