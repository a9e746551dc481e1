import CloudEnvelope.Proofs.Avro.Canonical
import CloudEnvelope.Proofs.Avro.Delimited
import CloudEnvelope.Proofs.Format.AvroEnvelope

/-!
# Bytes of events in Avro

What is written of an event ends where it ends: more bytes change nothing, and with fewer there is
no event (`AvroEnvelope.serialize_delimited`).

What is read as an event has its form in Avro as well, and is read again from it as it was, unless
an extension has a name that no extension may have (`AvroEnvelope.deserialize_rewritten`).  The
reader takes names as they come; only the writer looks at them.
-/

namespace CloudEnvelope.AvroEnvelope

variable {e d : Event} {raw : Bytes}

/-! ### The end of an event -/

/-- What follows an event does not change it. -/
theorem deserialize_append (h : deserialize raw = .ok d) (more : Bytes) :
    deserialize (raw ++ more) = .ok d := by
  obtain ⟨body, r, rest, rfl, hread, hrecord⟩ := deserialize_eq_ok_iff.mp h
  rw [List.append_assoc]
  exact deserialize_header (Avro.Record.steady_read hread more) hrecord

/-- A record that is read to its end behind the header is no event when the end is missing. -/
theorem deserialize_ne_ok_of_prefix {body : Bytes} {r : Avro.Record}
    (hread : Avro.Record.read body = .ok (r, [])) {part : Bytes} (hstart : part <+: header ++ body)
    (hne : part ≠ header ++ body) (d : Event) : deserialize part ≠ .ok d := by
  intro h
  obtain ⟨start, r', rest, rfl, hread', -⟩ := deserialize_eq_ok_iff.mp h
  have hstart' : start <+: body := (List.prefix_append_right_inj header).mp hstart
  have hne' : start ≠ body := fun heq => hne (congrArg (header ++ ·) heq)
  obtain ⟨fault, hfault⟩ :=
    Avro.Record.steady_read.exists_error_of_prefix hread hstart' hne'
  rw [hread'] at hfault
  cases hfault

/-- What is written of an event with a time inside the calendar, or with none, is an event whatever
follows it, and always the same.  When bytes at its end are missing, it is none.  No run of bytes
comes near the length up to which lengths can be read. -/
theorem serialize_delimited (htime : ∀ t ∈ e.time, DateTime.InCalendar t.instant)
    (h : EventFormat.avro.serialize e = .ok raw) (hlen : raw.length < 2 ^ 63) :
    (∃ d, deserialize raw = .ok d ∧ ∀ more, deserialize (raw ++ more) = .ok d) ∧
      ∀ part, part <+: raw → part ≠ raw → ∀ d, deserialize part ≠ .ok d := by
  have hserialize : serialize e = .ok raw := Except.mapError_eq_ok_iff.mp h
  obtain ⟨xs, hxs, body, hwrite, rfl⟩ := serialize_eq_ok_iff.mp hserialize
  rw [List.length_append] at hlen
  obtain ⟨time, hinstant, haware, hreads⟩ :=
    Avro.Record.reads_write (r := recordOf e xs) htime
  have hread := hreads body hwrite (by omega) []
  rw [List.append_nil] at hread
  -- The version is not written, so the event may as well be of the current one.
  obtain ⟨d, hd, -⟩ := exists_ofRecord (e := { e with specversion := Event.currentVersion }) rfl
    hxs hinstant haware
  have hok : deserialize (header ++ body) = .ok d := deserialize_header hread hd
  exact ⟨⟨d, hok, deserialize_append hok⟩, fun part => deserialize_ne_ok_of_prefix hread⟩

theorem serialize_delimited_eveOfEpoch :
    (∀ t ∈ eveOfEpoch.time, DateTime.InCalendar t.instant) ∧
      EventFormat.avro.serialize eveOfEpoch = .ok (header ++ eveOfEpochBody) ∧
      (header ++ eveOfEpochBody).length < 2 ^ 63 ∧
      (∃ d, deserialize (header ++ eveOfEpochBody) = .ok d ∧
        ∀ more, deserialize (header ++ eveOfEpochBody ++ more) = .ok d) ∧
      ∀ d, deserialize (header ++ eveOfEpochBody.dropLast) ≠ .ok d := by
  have htime : ∀ t ∈ eveOfEpoch.time, DateTime.InCalendar t.instant := by
    rintro t ⟨⟩
    exact ⟨by decide, by decide⟩
  have hwrite : EventFormat.avro.serialize eveOfEpoch = .ok (header ++ eveOfEpochBody) := by
    decide +kernel
  have hlen : (header ++ eveOfEpochBody).length < 2 ^ 63 := by decide
  obtain ⟨hmore, hpart⟩ := serialize_delimited htime hwrite hlen
  exact ⟨htime, hwrite, hlen, hmore, hpart _ (by decide) (by decide)⟩

/-! ### Writing what has been read -/

/-- Of the extensions of a record only a name can be refused. -/
theorem isNone_ofValue_toValue (x : Text × ExtensionValue) :
    (ExtensionValue.ofValue x.1 x.2.toValue).toOption.isNone = ExtensionValue.isForbidden x.1 := by
  rw [ExtensionValue.isNone_ofValue, ExtensionValue.ofValue?_toValue, Option.isNone_some,
    Bool.or_false]

/-- What is written of the event of a canonical record is the record, unless one of the names is
forbidden. -/
theorem serialize_of_ofRecord {r : Avro.Record} (hcanonical : r.Canonical)
    (h : ofRecord r = .ok d) :
    (∀ name, d.extensions.keys.find? ExtensionValue.isForbidden = some name →
        serialize d = .error (.reservedExtension name)) ∧
      (d.extensions.keys.find? ExtensionValue.isForbidden = none →
        ∃ body, r.write = .ok body ∧ serialize d = .ok (header ++ body)) := by
  obtain ⟨hrecord, hentries⟩ := recordOf_of_ofRecord h
  have hkeys : d.extensions.keys = r.extensions.entries.map (·.1) := by
    rw [OrderedMap.keys, hentries, List.map_map]
    rfl
  rw [hkeys, List.find?_map]
  constructor
  · intro name hname
    obtain ⟨x, hx, rfl⟩ := Option.map_eq_some_iff.mp hname
    have hforbidden : ExtensionValue.isForbidden x.1 := by simpa using List.find?_some hx
    have hrefused : ExtensionValue.ofEntries d.extensions.entries
        = .error (.reservedExtension x.1) := by
      refine ExtensionValue.ofEntries_of_find? (e := (x.1, x.2.toValue)) ?_
        (ExtensionValue.ofValue_eq_error_iff.mpr (.inl ⟨hforbidden, rfl⟩))
      rw [hentries, List.find?_map, Function.comp_def]
      simp only [isNone_ofValue_toValue]
      exact congrArg _ hx
    rw [serialize, record, extensionMap, hrefused]
    rfl
  · intro hnone
    have hallowed := List.find?_eq_none.mp (Option.map_eq_none_iff.mp hnone)
    have haccepted := ExtensionValue.ofEntries_toValue hallowed
    rw [← hentries] at haccepted
    obtain ⟨body, hwrite⟩ := hcanonical.exists_write
    exact ⟨body, hwrite, serialize_eq_ok_iff.mpr
      ⟨r.extensions, haccepted, body, hrecord.symm ▸ hwrite, rfl⟩⟩

/-- A canonical record is the event that is read from what is written of it. -/
theorem deserialize_of_write {r : Avro.Record} (hcanonical : r.Canonical) {body : Bytes}
    (hwrite : r.write = .ok body) (hlen : body.length < 2 ^ 63) (h : ofRecord r = .ok d) :
    deserialize (header ++ body) = .ok d := by
  have hread := hcanonical.reads_write hwrite hlen []
  rw [List.append_nil] at hread
  exact deserialize_header hread h

/-- What is read as an event is written again exactly when none of its extensions has a forbidden
name, and else the first of these names is objected to.  From what is written the event is read as
it was: nothing of it depends on the form in which it came. -/
theorem deserialize_rewritten (h : deserialize raw = .ok d) :
    ((∃ out, EventFormat.avro.serialize d = .ok out) ↔
        ∀ name ∈ d.extensions.keys, ¬ExtensionValue.isForbidden name) ∧
      (∀ name, d.extensions.keys.find? ExtensionValue.isForbidden = some name →
        EventFormat.avro.serialize d = .error (.encoding (.reservedExtension name))) ∧
      ∀ out, EventFormat.avro.serialize d = .ok out → out.length < 2 ^ 63 →
        deserialize out = .ok d := by
  obtain ⟨body, r, rest, -, hread, hrecord⟩ := deserialize_eq_ok_iff.mp h
  have hcanonical := Avro.Record.yields_read hread
  obtain ⟨hrefused, hwritten⟩ := serialize_of_ofRecord hcanonical hrecord
  have hok : ∀ out, EventFormat.avro.serialize d = .ok out ↔ serialize d = .ok out := fun out =>
    Except.mapError_eq_ok_iff
  have herror : ∀ name, d.extensions.keys.find? ExtensionValue.isForbidden = some name →
      EventFormat.avro.serialize d = .error (.encoding (.reservedExtension name)) := by
    intro name hname
    exact Except.mapError_eq_error_iff.mpr ⟨_, hrefused name hname, rfl⟩
  cases hfind : d.extensions.keys.find? ExtensionValue.isForbidden with
  | some name =>
    have hnot : ∀ out, EventFormat.avro.serialize d ≠ .ok out := by
      intro out hout
      rw [herror name hfind] at hout
      cases hout
    refine ⟨iff_of_false (fun ⟨out, hout⟩ => hnot out hout) fun hall => ?_, hfind ▸ herror,
      fun out hout => absurd hout (hnot out)⟩
    exact hall name (List.mem_of_find?_eq_some hfind) (List.find?_some hfind)
  | none =>
    obtain ⟨body', hwrite, hserialize⟩ := hwritten hfind
    refine ⟨iff_of_true ⟨_, (hok _).mpr hserialize⟩ (List.find?_eq_none.mp hfind), ?_, ?_⟩
    · intro name hname
      cases hname
    · intro out hout hlen
      rw [hok, hserialize] at hout
      cases hout
      rw [List.length_append] at hlen
      exact deserialize_of_write hcanonical hwrite (by omega) hrecord

/-- The record of `eveOfEpoch`. -/
def eveOfEpochRecord : Avro.Record :=
  recordOf eveOfEpoch (.ofList [("flag", .bool true), ("n", .int (-1))])

theorem deserialize_eveOfEpoch : deserialize (header ++ eveOfEpochBody) = .ok eveOfEpoch := by
  have hwrite : eveOfEpochRecord.write = .ok eveOfEpochBody := by decide +kernel
  have htime : ∀ t ∈ eveOfEpochRecord.time, Avro.Settled t := by
    rintro _ ⟨⟩
    rfl
  exact deserialize_of_write (.of_write hwrite htime) hwrite (by decide) rfl

theorem deserialize_rewritten_eveOfEpoch :
    deserialize (header ++ eveOfEpochBody ++ [7]) = .ok eveOfEpoch ∧
      (∃ out, EventFormat.avro.serialize eveOfEpoch = .ok out) ∧
      EventFormat.avro.serialize eveOfEpoch = .ok (header ++ eveOfEpochBody) ∧
      deserialize (header ++ eveOfEpochBody) = .ok eveOfEpoch := by
  -- What follows the record is not written again.
  have hread := deserialize_append deserialize_eveOfEpoch [7]
  have hwrite : EventFormat.avro.serialize eveOfEpoch = .ok (header ++ eveOfEpochBody) := by
    decide +kernel
  obtain ⟨hwritten, -, hback⟩ := deserialize_rewritten hread
  exact ⟨hread, hwritten.mpr (by decide), hwrite, hback _ hwrite (by decide)⟩

/-- An event whose only extension has the name of an attribute. -/
def borrowedName : Event :=
  { eveOfEpoch with
    time := none
    data := []
    extensions := .ofList [("id", .bool true)] }

/-- The record of `borrowedName`. -/
def borrowedNameRecord : Avro.Record := recordOf borrowedName (.ofList [("id", .bool true)])

/-- The bytes of `borrowedNameRecord` behind the header. -/
def borrowedNameBody : Bytes :=
  [0x02, 0x31, 0x0A, 0x75, 0x72, 0x6E, 0x3A, 0x78, 0x02, 0x74, 0x00, 0x00, 0x00, 0x00, 0x02, 0x04,
    0x69, 0x64, 0x00, 0x01, 0x00, 0x00, 0x00]

/-- The reader takes a name that the writer refuses. -/
theorem borrowedName_refused :
    deserialize (header ++ borrowedNameBody) = .ok borrowedName ∧
      EventFormat.avro.serialize borrowedName = .error (.encoding (.reservedExtension "id")) := by
  have hwrite : borrowedNameRecord.write = .ok borrowedNameBody := by decide +kernel
  have hcanonical : borrowedNameRecord.Canonical :=
    .of_write hwrite fun t ht => absurd ht (Option.not_mem_none t)
  exact ⟨deserialize_of_write hcanonical hwrite (by decide) rfl, by decide +kernel⟩

end CloudEnvelope.AvroEnvelope
