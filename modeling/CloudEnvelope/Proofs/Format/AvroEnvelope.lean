import CloudEnvelope.Format.Basic
import CloudEnvelope.Proofs.Avro.Record
import CloudEnvelope.Proofs.Event.ReadBack

/-!
# Events in Avro read back

`AvroEnvelope.serialize_roundTrip`: which events Avro has a form for (`AvroEnvelope.Accepts`), and
that such an event is read back from it, its time in UTC and its extensions as their extension
values.  The instant of a local time is a matter of the zone that the writer is in, so nothing is
said of an event with a local time there.
-/

namespace CloudEnvelope.AvroEnvelope

/-! ### Writing -/

/-- The record of an event whose extensions have been accepted. -/
def recordOf (e : Event) (extensions : OrderedMap Text ExtensionValue) : Avro.Record where
  id := e.id
  source := e.source
  type := e.type
  dataContentType := e.dataContentType
  dataSchema := e.dataSchema
  subject := e.subject
  time := e.time
  extensions := extensions
  data := e.data

/-- Accepted extensions keep their names, so their map has their entries. -/
theorem extensionMap_eq_ok_iff {m : OrderedMap Text Value}
    {xs : OrderedMap Text ExtensionValue} :
    extensionMap m = .ok xs ↔ ExtensionValue.ofEntries m.entries = .ok xs.entries := by
  rw [extensionMap, Except.map_eq_ok_iff]
  constructor
  · rintro ⟨es, h, rfl⟩
    rw [h, OrderedMap.entries_ofList]
    rw [ExtensionValue.map_fst_of_ofEntries h]
    exact m.nodup
  · intro h
    exact ⟨xs.entries, h, OrderedMap.ofList_entries xs⟩

/-- What is written is the header and the record of the accepted extensions. -/
theorem serialize_eq_ok_iff {e : Event} {raw : Bytes} :
    serialize e = .ok raw ↔ ∃ xs : OrderedMap Text ExtensionValue,
      ExtensionValue.ofEntries e.extensions.entries = .ok xs.entries ∧
        ∃ body, (recordOf e xs).write = .ok body ∧ header ++ body = raw := by
  rw [serialize, record]
  simp only [Except.bind_eq_ok_iff, extensionMap_eq_ok_iff]
  constructor
  · rintro ⟨r, ⟨xs, hxs, ⟨⟩⟩, h⟩
    refine ⟨xs, hxs, ?_⟩
    split at h <;> rename_i hwrite
    · cases h
      exact ⟨_, hwrite, rfl⟩
    · cases h
  · rintro ⟨xs, hxs, body, hwrite, rfl⟩
    refine ⟨recordOf e xs, ⟨xs, hxs, rfl⟩, ?_⟩
    rw [hwrite]
    rfl

/-- Avro has a form for an event: none of its texts holds a lone surrogate, and its extensions are
accepted and have a form. -/
structure Accepts (e : Event) : Prop where
  dataContentType : ∀ t ∈ e.dataContentType, t.LoneFree
  dataSchema : ∀ t ∈ e.dataSchema, t.LoneFree
  subject : ∀ t ∈ e.subject, t.LoneFree
  extensions : ∀ x ∈ e.extensions.entries, x.1.LoneFree ∧
    ∃ v, ExtensionValue.ofValue x.1 x.2 = .ok v ∧ Avro.Carries v

theorem exists_serialize_iff {e : Event} : (∃ raw, serialize e = .ok raw) ↔ Accepts e := by
  simp only [serialize_eq_ok_iff]
  constructor
  · rintro ⟨_, xs, hxs, body, hwrite, -⟩
    obtain ⟨hcontentType, hschema, hsubject, hextensions⟩ :=
      Avro.Record.exists_write_iff.mp ⟨body, hwrite⟩
    exact ⟨hcontentType, hschema, hsubject,
      (ExtensionValue.forall_mem_iff_of_ofEntries hxs).mp hextensions⟩
  · rintro ⟨hcontentType, hschema, hsubject, hextensions⟩
    obtain ⟨es, hes⟩ := ExtensionValue.exists_ofEntries_iff.mpr fun x hx =>
      (hextensions x hx).2.imp fun _ h => h.1
    have hnodup : (es.map (·.1)).Nodup := by
      rw [ExtensionValue.map_fst_of_ofEntries hes]
      exact e.extensions.nodup
    obtain ⟨body, hwrite⟩ := (Avro.Record.exists_write_iff (r := recordOf e ⟨es, hnodup⟩)).mpr
      ⟨hcontentType, hschema, hsubject,
        (ExtensionValue.forall_mem_iff_of_ofEntries hes).mpr hextensions⟩
    exact ⟨_, ⟨es, hnodup⟩, hes, body, hwrite, rfl⟩

/-! ### Reading -/

/-- The event of a record is what is read back. -/
theorem exists_ofRecord {e : Event} {xs : OrderedMap Text ExtensionValue} {time : Option DateTime}
    (hversion : e.specversion = Event.currentVersion)
    (hxs : ExtensionValue.ofEntries e.extensions.entries = .ok xs.entries)
    (hinstant : time.map DateTime.instant = e.time.map DateTime.instant)
    (haware : ∀ t ∈ time, t.offset.isSome) :
    ∃ d, ofRecord { recordOf e xs with time := time } = .ok d ∧
      Event.ReadBack ExtensionValue.toValue e d := by
  have hdraft : ofRecord { recordOf e xs with time := time }
      = Event.validate (e.draft ((time.map Value.dateTime).getD .null)
          (xs.entries.map fun x => (x.1, x.2.toValue))) := by
    rw [ofRecord, Event.draft, List.map_map]
    rfl
  rw [hdraft]
  exact Event.exists_validate_draft hversion hxs (Field.optional_dateTime time) hinstant haware

/-- The event of a record has its fields, and its extensions as values. -/
theorem recordOf_of_ofRecord {r : Avro.Record} {d : Event} (h : ofRecord r = .ok d) :
    recordOf d r.extensions = r ∧
      d.extensions.entries = r.extensions.entries.map fun x => (x.1, x.2.toValue) := by
  obtain ⟨-, hid, hsource, htype, htime, hcontentType, hschema, hsubject, hdata, hextensions⟩ :=
    Event.validate_eq_ok_iff.mp h
  have hid : d.id = r.id := Field.eq_of_nonempty_text (Checked.at'_eq_ok_iff.mp hid)
  have hsource : d.source = r.source :=
    Field.eq_of_nonempty_text (Checked.at'_eq_ok_iff.mp hsource)
  have htype : d.type = r.type := Field.eq_of_nonempty_text (Checked.at'_eq_ok_iff.mp htype)
  have htime : d.time = r.time := EventDraft.eq_of_defaulted htime (Field.optional_dateTime _)
  have hcontentType : d.dataContentType = r.dataContentType :=
    EventDraft.eq_of_defaulted hcontentType (Field.optional_text _)
  have hschema : d.dataSchema = r.dataSchema :=
    EventDraft.eq_of_defaulted hschema (Field.optional_text _)
  have hsubject : d.subject = r.subject :=
    EventDraft.eq_of_defaulted hsubject (Field.optional_text _)
  have hdata : d.data = r.data := EventDraft.eq_of_defaulted hdata rfl
  have hextensions : d.extensions = r.extensions.mapValues fun _ x => x.toValue :=
    Except.ok.inj (hextensions.symm.trans (EventDraft.extensionMap_toValue _))
  refine ⟨?_, congrArg OrderedMap.entries hextensions⟩
  rw [recordOf, hid, hsource, htype, htime, hcontentType, hschema, hsubject, hdata]

theorem isPrefixOf_header (body : Bytes) : header.isPrefixOf (header ++ body) :=
  List.isPrefixOf_iff_prefix.mpr (List.prefix_append header body)

/-- What is read behind the header is the record there. -/
theorem deserialize_header {body rest : Bytes} {r : Avro.Record} {d : Event}
    (hread : Avro.Record.read body = .ok (r, rest)) (hrecord : ofRecord r = .ok d) :
    deserialize (header ++ body) = .ok d := by
  rw [deserialize, if_pos (isPrefixOf_header body), List.drop_left, hread]
  simp only [hrecord]

/-- Bytes without a record behind the header fail for it. -/
theorem deserialize_unreadable {body : Bytes} {fault : Fault}
    (hread : Avro.Record.read body = .error fault) :
    deserialize (header ++ body) = .error (unreadable fault) := by
  rw [deserialize, if_pos (isPrefixOf_header body), List.drop_left, hread]

/-- The problems of a record are a fault of their own. -/
theorem deserialize_refused {body rest : Bytes} {r : Avro.Record} {problems : List Problem}
    (hread : Avro.Record.read body = .ok (r, rest)) (hrecord : ofRecord r = .error problems) :
    deserialize (header ++ body) = .error (.fault (.invalid problems)) := by
  rw [deserialize, if_pos (isPrefixOf_header body), List.drop_left, hread]
  simp only [hrecord]

/-- Bytes with an event have its record behind the header. -/
theorem deserialize_eq_ok_iff {raw : Bytes} {d : Event} :
    deserialize raw = .ok d ↔ ∃ body r rest, header ++ body = raw ∧
      Avro.Record.read body = .ok (r, rest) ∧ ofRecord r = .ok d := by
  constructor
  · intro h
    by_cases hheader : header.isPrefixOf raw
    · obtain ⟨body, rfl⟩ := List.isPrefixOf_iff_prefix.mp hheader
      cases hread : Avro.Record.read body with
      | error fault =>
        rw [deserialize_unreadable hread] at h
        cases h
      | ok p =>
        cases hrecord : ofRecord p.1 with
        | error problems =>
          rw [deserialize_refused hread hrecord] at h
          cases h
        | ok e =>
          rw [deserialize_header hread hrecord] at h
          cases h
          exact ⟨body, p.1, p.2, rfl, hread, hrecord⟩
    · rw [deserialize, if_neg hheader] at h
      cases h
  · rintro ⟨body, r, rest, rfl, hread, hrecord⟩
    exact deserialize_header hread hrecord

/-- What is written of an event with a time inside the calendar, or with none, is read back. -/
theorem exists_deserialize {e : Event} {raw : Bytes}
    (hversion : e.specversion = Event.currentVersion)
    (htime : ∀ t ∈ e.time, DateTime.InCalendar t.instant) (h : serialize e = .ok raw)
    (hlen : raw.length < 2 ^ 63) :
    ∃ d, deserialize raw = .ok d ∧ Event.ReadBack ExtensionValue.toValue e d := by
  obtain ⟨xs, hxs, body, hwrite, rfl⟩ := serialize_eq_ok_iff.mp h
  rw [List.length_append] at hlen
  obtain ⟨time, hinstant, haware, hread⟩ :=
    Avro.Record.reads_write (r := recordOf e xs) htime
  obtain ⟨d, hd, hback⟩ := exists_ofRecord hversion hxs hinstant haware
  have hrecord := hread body hwrite (by omega) []
  rw [List.append_nil] at hrecord
  exact ⟨d, deserialize_header hrecord hd, hback⟩

/-- An event of the last day before 1970, with a truth value and an integer as its extensions. -/
def eveOfEpoch : Event where
  specversion := Event.currentVersion
  id := "1"
  source := "urn:x"
  type := "t"
  time := some ⟨⟨1969, 12, 31, by decide, by decide⟩, .midnight, some .utc⟩
  dataContentType := none
  dataSchema := none
  subject := none
  data := [0xFF]
  extensions := .ofList [("flag", .bool true), ("n", .int (-1))]
  id_ne := by decide
  source_ne := by decide
  type_ne := by decide

/-- The bytes of `eveOfEpoch` behind the header. -/
def eveOfEpochBody : Bytes :=
  [0x02, 0x31, 0x0A, 0x75, 0x72, 0x6E, 0x3A, 0x78, 0x02, 0x74, 0x00, 0x00, 0x00, 0x02, 0xFF, 0xFF,
    0xBA, 0xDD, 0x83, 0x05, 0x04, 0x08, 0x66, 0x6C, 0x61, 0x67, 0x00, 0x01, 0x02, 0x6E, 0x02, 0x01,
    0x00, 0x00, 0x02, 0xFF]

end CloudEnvelope.AvroEnvelope
