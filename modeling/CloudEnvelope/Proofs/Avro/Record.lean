import CloudEnvelope.Avro.RecordReader
import CloudEnvelope.Proofs.Avro.Integer
import CloudEnvelope.Proofs.Calendar.Ordinal
import CloudEnvelope.Proofs.Except
import CloudEnvelope.Proofs.OrderedMap
import CloudEnvelope.Proofs.Text.Scalar
import CloudEnvelope.Proofs.Text.Utf8
import Mathlib.Tactic.Common

/-!
# Records in Avro read back

A record is written exactly when none of its texts holds a lone surrogate and none of its integers
needs more than 64 bits (`Record.exists_write_iff`), and it is read back from what is written, its
time in UTC (`Record.reads_write`).

Lengths are written as integers of 64 bits, so what is read back has to be shorter than `2 ^ 63`
bytes: more than any run of bytes that a machine can hold.
-/

namespace CloudEnvelope.Avro

/-- The extension value has a form in Avro. -/
def Carries : ExtensionValue → Prop
  | .int n => -2 ^ 63 ≤ n ∧ n < 2 ^ 63
  | .text t => t.LoneFree
  | _ => True

/-! ### What is written -/

theorem exists_writeText_iff {t : Text} : (∃ bytes, writeText t = .ok bytes) ↔ t.LoneFree := by
  rw [← Text.isSome_utf8?_iff, writeText]
  cases t.utf8? <;> simp

theorem exists_writeOptional_iff {α : Type} {write : α → Except Fault Bytes} {o : Option α} :
    (∃ bytes, writeOptional write o = .ok bytes) ↔ ∀ a ∈ o, ∃ bytes, write a = .ok bytes := by
  cases o <;> simp [writeOptional, Except.map_eq_ok_iff]

theorem holds_of_holds {n : Int} (h : Word.holds 32 n) : Word.holds 64 n := by
  rw [Word.holds_iff]
  simp only [Word.holds, Bool.and_eq_true, decide_eq_true_eq] at h
  have hbound : (Nat.pow 2 (32 - 1) : Int) = 2147483648 := rfl
  omega

theorem exists_writeExtension_iff {x : ExtensionValue} :
    (∃ bytes, writeExtension x = .ok bytes) ↔ Carries x := by
  cases x with
  | bool b => simp [writeExtension, Carries]
  | int n =>
    rw [Carries, ← Word.holds_iff]
    simp only [writeExtension]
    split_ifs with h32 h64
    · simp [holds_of_holds h32]
    · simp [h64]
    · simp [h64]
  | text t =>
    simp only [writeExtension, Except.map_eq_ok_iff, Carries, ← exists_writeText_iff]
    simp
  | bytes content => simp [writeExtension, Carries]

theorem exists_writeEntries_iff {es : List (Text × ExtensionValue)} :
    (∃ bytes, writeEntries es = .ok bytes) ↔ ∀ e ∈ es, e.1.LoneFree ∧ Carries e.2 := by
  induction es with
  | nil => simp [writeEntries]
  | cons e rest ih =>
    rw [List.forall_mem_cons, ← ih, ← exists_writeText_iff, ← exists_writeExtension_iff,
      writeEntries]
    simp only [Except.bind_eq_ok_iff]
    constructor
    · rintro ⟨_, key, hkey, value, hvalue, others, hothers, -⟩
      exact ⟨⟨⟨key, hkey⟩, value, hvalue⟩, others, hothers⟩
    · rintro ⟨⟨⟨key, hkey⟩, value, hvalue⟩, others, hothers⟩
      exact ⟨_, key, hkey, value, hvalue, others, hothers, rfl⟩

theorem exists_writeMap_iff {m : OrderedMap Text ExtensionValue} :
    (∃ bytes, writeMap m = .ok bytes) ↔ ∀ e ∈ m.entries, e.1.LoneFree ∧ Carries e.2 := by
  rw [← exists_writeEntries_iff, writeMap]
  simp only [Except.bind_eq_ok_iff]
  constructor
  · rintro ⟨_, entries, h, -⟩
    exact ⟨entries, h⟩
  · rintro ⟨entries, h⟩
    exact ⟨_, entries, h, rfl⟩

/-- A record is written exactly when Avro has a form for each of its texts and extensions. -/
theorem Record.exists_write_iff {r : Record} :
    (∃ bytes, r.write = .ok bytes) ↔
      (∀ t ∈ r.dataContentType, t.LoneFree) ∧ (∀ t ∈ r.dataSchema, t.LoneFree)
        ∧ (∀ t ∈ r.subject, t.LoneFree)
        ∧ ∀ e ∈ r.extensions.entries, e.1.LoneFree ∧ Carries e.2 := by
  rw [← exists_writeMap_iff, Record.write]
  simp only [← exists_writeText_iff, ← exists_writeOptional_iff]
  simp only [Except.bind_eq_ok_iff]
  constructor
  · rintro ⟨_, _, -, _, -, _, -, ct, hct, schema, hschema, subject, hsubject, _, -, map, hmap, -⟩
    exact ⟨⟨ct, hct⟩, ⟨schema, hschema⟩, ⟨subject, hsubject⟩, map, hmap⟩
  · rintro ⟨⟨ct, hct⟩, ⟨schema, hschema⟩, ⟨subject, hsubject⟩, map, hmap⟩
    -- Strings and times always have a form.
    obtain ⟨id, hid⟩ := exists_writeText_iff.mpr (Text.loneFree_ofString r.id)
    obtain ⟨source, hsource⟩ := exists_writeText_iff.mpr (Text.loneFree_ofString r.source)
    obtain ⟨type, htype⟩ := exists_writeText_iff.mpr (Text.loneFree_ofString r.type)
    obtain ⟨time, htime⟩ : ∃ bytes, writeOptional (fun t => .ok (Integer.write t.instant)) r.time
        = .ok bytes := exists_writeOptional_iff.mpr fun t _ => ⟨_, rfl⟩
    exact ⟨_, id, hid, source, hsource, type, htype, ct, hct, schema, hschema, subject, hsubject,
      time, htime, map, hmap, rfl⟩

/-! ### What is read -/

/-- Content is read back when its length is known. -/
theorem reads_readContent (content : Bytes) :
    Reads (readContent content.length) content content := by
  intro rest
  have hsize : (0 : Int) ≤ content.length ∧ (content.length : Int) ≤ (content ++ rest).length := by
    rw [List.length_append]
    omega
  rw [readContent, if_pos hsize, Int.toNat_natCast, List.take_left, List.drop_left]

/-- The length of what is written after a length is no more than all of it. -/
theorem length_le_writeBytes (content : Bytes) : content.length ≤ (writeBytes content).length := by
  rw [writeBytes, List.length_append]
  omega

theorem reads_writeBytes {content : Bytes} (h : (writeBytes content).length < 2 ^ 63) :
    Reads readBytes (writeBytes content) content :=
  .bind (Integer.reads_write_natCast (Nat.lt_of_le_of_lt (length_le_writeBytes content) h))
    (reads_readContent content)

/-- The string of a text that is written is read back. -/
theorem reads_writeText {t : Text} {bytes : Bytes} (h : writeText t = .ok bytes)
    (hlen : bytes.length < 2 ^ 63) : ∃ s, Text.ofString s = t ∧ Reads readString bytes s := by
  rw [writeText] at h
  split at h
  · rename_i content hcontent
    cases h
    obtain ⟨cs, rfl, rfl⟩ := Text.utf8?_eq_some_iff.mp hcontent
    refine ⟨String.ofList cs, by rw [Text.ofString, String.toList_ofList, Text.ofChars], ?_⟩
    refine Reads.bind_pure (reads_writeBytes hlen) ?_
    rw [Utf8.toString?, Utf8.decode?_encode]
    rfl
  · cases h

theorem reads_writeText_text {t : Text} {bytes : Bytes} (h : writeText t = .ok bytes)
    (hlen : bytes.length < 2 ^ 63) : Reads readText bytes t := by
  obtain ⟨s, rfl, hread⟩ := reads_writeText h hlen
  exact hread.bind_pure rfl

theorem reads_writeText_string {s : String} {bytes : Bytes} (h : writeText s = .ok bytes)
    (hlen : bytes.length < 2 ^ 63) : Reads readString bytes s := by
  obtain ⟨s', hs, hread⟩ := reads_writeText h hlen
  exact Text.ofString_inj.mp hs ▸ hread

/-! ### Unions -/

/-- A branch that exists is read back. -/
theorem reads_branch {n branches : Nat} (hn : n < branches) (hlt : n < 2 ^ 63) :
    Reads (readBranch branches) (Integer.write n) n := by
  refine (Integer.reads_write_natCast hlt).bind_pure ?_
  rw [if_pos (by omega), Int.toNat_natCast]

theorem reads_optional_none {α : Type} (r : Reader α) :
    Reads (readOptional r) (Integer.write 0) none :=
  (reads_branch (n := 0) (by decide) (by decide)).bind_pure rfl

theorem reads_optional_some {α : Type} {r : Reader α} {bytes : Bytes} {a : α}
    (h : Reads r bytes a) : Reads (readOptional r) (Integer.write 1 ++ bytes) (some a) :=
  (reads_branch (n := 1) (by decide) (by decide)).bind (h.bind_pure rfl)

theorem reads_writeOptional_text {o : Option Text} {bytes : Bytes}
    (h : writeOptional writeText o = .ok bytes) (hlen : bytes.length < 2 ^ 63) :
    Reads (readOptional readText) bytes o := by
  cases o with
  | none =>
    cases h
    exact reads_optional_none _
  | some t =>
    obtain ⟨content, hcontent, rfl⟩ := Except.map_eq_ok_iff.mp h
    rw [List.length_append] at hlen
    exact reads_optional_some (reads_writeText_text hcontent (by omega))

/-- A time is read back in UTC. -/
theorem reads_writeOptional_time {o : Option DateTime}
    (h : ∀ t ∈ o, DateTime.InCalendar t.instant) :
    ∃ o', o'.map DateTime.instant = o.map DateTime.instant ∧ (∀ t ∈ o', t.offset.isSome) ∧
      ∀ bytes, writeOptional (fun t => .ok (Integer.write t.instant)) o = .ok bytes →
        Reads (readOptional readTime) bytes o' := by
  cases o with
  | none =>
    refine ⟨none, rfl, fun t ht => (nomatch ht), ?_⟩
    rintro bytes ⟨⟩
    exact reads_optional_none _
  | some t =>
    obtain ⟨t', ht', hinstant, hoffset⟩ := DateTime.exists_ofInstant? (h t rfl)
    refine ⟨some t', congrArg some hinstant, ?_, ?_⟩
    · rintro t'' ⟨⟩
      rw [hoffset]
      rfl
    · rintro bytes ⟨⟩
      have hholds : Word.holds 64 t.instant := by
        obtain ⟨hlo, hhi⟩ := h t rfl
        exact Word.holds_iff.mpr ⟨by omega, by omega⟩
      refine reads_optional_some ((Integer.reads_write hholds).bind_pure ?_)
      simp only [ht']

/-! ### Extensions -/

theorem reads_writeExtension {x : ExtensionValue} {bytes : Bytes}
    (h : writeExtension x = .ok bytes) (hlen : bytes.length < 2 ^ 63) :
    Reads readExtension bytes x := by
  cases x with
  | bool b =>
    cases h
    have hbool : Reads readBool [if b then 1 else 0] b :=
      (reads_readContent [if b then 1 else 0]).bind_pure (by cases b <;> rfl)
    exact (reads_branch (n := 0) (by decide) (by decide)).bind (hbool.bind_pure rfl)
  | int n =>
    simp only [writeExtension] at h
    split_ifs at h with h32 h64
    · cases h
      exact (reads_branch (n := 1) (by decide) (by decide)).bind
        ((Integer.reads_write (holds_of_holds h32)).bind_pure rfl)
    · cases h
      exact (reads_branch (n := 2) (by decide) (by decide)).bind
        ((Integer.reads_write h64).bind_pure rfl)
  | text t =>
    obtain ⟨content, hcontent, rfl⟩ := Except.map_eq_ok_iff.mp h
    rw [List.length_append] at hlen
    exact (reads_branch (n := 3) (by decide) (by decide)).bind
      ((reads_writeText_text hcontent (by omega)).bind_pure rfl)
  | bytes content =>
    cases h
    rw [List.length_append] at hlen
    exact (reads_branch (n := 4) (by decide) (by decide)).bind
      ((reads_writeBytes (by omega)).bind_pure rfl)

/-! ### Maps -/

theorem reads_writeEntries {es : List (Text × ExtensionValue)} {bytes : Bytes}
    (h : writeEntries es = .ok bytes) (hlen : bytes.length < 2 ^ 63) :
    Reads (readEntries es.length) bytes es := by
  induction es generalizing bytes with
  | nil =>
    cases h
    exact .pure []
  | cons e rest ih =>
    obtain ⟨name, x⟩ := e
    simp only [writeEntries, Except.bind_eq_ok_iff] at h
    obtain ⟨key, hkey, value, hvalue, others, hothers, ⟨⟩⟩ := h
    rw [List.length_append, List.length_append] at hlen
    rw [List.append_assoc]
    exact (reads_writeText_text hkey (by omega)).bind
      ((reads_writeExtension hvalue (by omega)).bind
        ((ih hothers (by omega)).bind_pure rfl))

theorem length_pos_of_writeText {t : Text} {bytes : Bytes} (h : writeText t = .ok bytes) :
    0 < bytes.length := by
  rw [writeText] at h
  split at h
  · rename_i content _
    cases h
    have hsize := List.length_pos_iff.mpr (Integer.write_ne_nil content.length)
    rw [writeBytes, List.length_append]
    omega
  · cases h

/-- Every entry takes at least one byte. -/
theorem length_le_writeEntries {es : List (Text × ExtensionValue)} {bytes : Bytes}
    (h : writeEntries es = .ok bytes) : es.length ≤ bytes.length := by
  induction es generalizing bytes with
  | nil => exact Nat.zero_le _
  | cons e rest ih =>
    simp only [writeEntries, Except.bind_eq_ok_iff] at h
    obtain ⟨key, hkey, value, -, others, hothers, ⟨⟩⟩ := h
    have hone := length_pos_of_writeText hkey
    have hrest := ih hothers
    simp only [List.length_cons, List.length_append]
    omega

/-- The empty block ends a map. -/
theorem readBlocks_end {input rest : Bytes} (h : Integer.read input = .ok (0, rest)) :
    readBlocks input = .ok ([], rest) := by
  rw [readBlocks]
  split <;> rename_i hread
  · rw [h] at hread
    cases hread
  · rw [h] at hread
    cases hread
    rfl

/-- A block that is not empty comes before the other blocks. -/
theorem readBlocks_block {input rest rest' final : Bytes} {count : Int}
    {entries others : List (Text × ExtensionValue)} (h : Integer.read input = .ok (count, rest))
    (hcount : count ≠ 0) (hblock : readBlock count rest = .ok (entries, rest'))
    (hothers : readBlocks rest' = .ok (others, final)) :
    readBlocks input = .ok (entries ++ others, final) := by
  rw [readBlocks]
  split <;> rename_i hread
  · rw [h] at hread
    cases hread
  · rw [h] at hread
    cases hread
    rw [if_neg hcount]
    split <;> rename_i hread'
    · rw [hblock] at hread'
      cases hread'
    · rw [hblock] at hread'
      cases hread'
      rw [hothers]

theorem reads_writeMap {m : OrderedMap Text ExtensionValue} {bytes : Bytes}
    (h : writeMap m = .ok bytes) (hlen : bytes.length < 2 ^ 63) : Reads readMap bytes m := by
  rw [writeMap, Except.bind_eq_ok_iff] at h
  obtain ⟨content, hcontent, ⟨⟩⟩ := h
  have hblocks : Reads readBlocks
      ((if m.isEmpty then [] else Integer.write m.size) ++ content ++ Integer.write 0)
      m.entries := by
    intro rest
    have hend : readBlocks (Integer.write 0 ++ rest) = .ok ([], rest) :=
      readBlocks_end (Integer.reads_write (n := 0) (by decide) rest)
    -- An empty map is the closing block alone; any other stands in one block before it.
    by_cases hempty : m.entries = []
    · have hm : m.isEmpty := List.isEmpty_iff.mpr hempty
      rw [hempty] at hcontent
      cases hcontent
      rw [if_pos hm, hempty]
      exact hend
    · have hm : ¬m.isEmpty := fun hm => hempty (List.isEmpty_iff.mp hm)
      rw [if_neg hm] at hlen ⊢
      simp only [List.length_append] at hlen
      have hsize : m.size ≤ content.length := length_le_writeEntries hcontent
      have hpos : 0 < m.size := List.length_pos_iff.mpr hempty
      have hblock : Reads (readBlock m.size) content m.entries := by
        have hnonneg : ¬(m.size : Int) < 0 := by omega
        rw [readBlock, if_neg hnonneg]
        exact reads_writeEntries hcontent (by omega)
      have := readBlocks_block (Integer.reads_write_natCast (n := m.size) (by omega) _)
        (by omega) (hblock _) hend
      rw [List.append_nil] at this
      rw [List.append_assoc, List.append_assoc]
      exact this
  exact hblocks.bind_pure (congrArg Pure.pure (OrderedMap.ofList_entries m))

/-! ### Records -/

theorem reads_data {content : Bytes} (h : (writeBytes content).length < 2 ^ 63) :
    Reads readData (Integer.write 0 ++ writeBytes content) content :=
  (reads_branch (n := 0) (by decide) (by decide)).bind (reads_writeBytes h)

/-- A record is read back from what is written, its time in UTC. -/
theorem Record.reads_write {r : Record} (htime : ∀ t ∈ r.time, DateTime.InCalendar t.instant) :
    ∃ time : Option DateTime, time.map DateTime.instant = r.time.map DateTime.instant ∧
      (∀ t ∈ time, t.offset.isSome) ∧
      ∀ bytes, r.write = .ok bytes → bytes.length < 2 ^ 63 →
        Reads Record.read bytes { r with time := time } := by
  obtain ⟨time, hinstant, haware, hread⟩ := reads_writeOptional_time htime
  refine ⟨time, hinstant, haware, ?_⟩
  intro bytes h hlen
  simp only [Record.write, Except.bind_eq_ok_iff] at h
  obtain ⟨id, hid, source, hsource, type, htype, contentType, hcontentType, schema, hschema,
    subject, hsubject, timeBytes, htimeBytes, map, hmap, ⟨⟩⟩ := h
  -- The bound on all bytes bounds those of each field.
  simp only [List.length_append] at hlen
  simp only [List.append_assoc]
  refine (reads_writeText_string hid (by omega)).bind ?_
  refine (reads_writeText_string hsource (by omega)).bind ?_
  refine (reads_writeText_string htype (by omega)).bind ?_
  refine (reads_writeOptional_text hcontentType (by omega)).bind ?_
  refine (reads_writeOptional_text hschema (by omega)).bind ?_
  refine (reads_writeOptional_text hsubject (by omega)).bind ?_
  refine (hread _ htimeBytes).bind ?_
  refine (reads_writeMap hmap (by omega)).bind ?_
  exact (reads_data (by omega)).bind_pure rfl

end CloudEnvelope.Avro
