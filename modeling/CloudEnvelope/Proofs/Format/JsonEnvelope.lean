import CloudEnvelope.Format.Basic
import CloudEnvelope.Format.JsonEnvelope.Reader
import CloudEnvelope.Proofs.Base64
import CloudEnvelope.Proofs.Calendar.Rfc3339
import CloudEnvelope.Proofs.Event.ReadBack
import CloudEnvelope.Proofs.Format.JsonDocument
import CloudEnvelope.Proofs.Text.Utf8

/-!
# Events in JSON read back

`JsonEnvelope.deserialize_serialize`: an event is read back from what is written for it, with its
data byte for byte, when the data is not to be read as JSON.  The reader and the writer choose the
member of the data by tests of their own; `dataMember_of_plain` says what the writer chooses, and
`data_of_describes` that the reader finds the same bytes there.
-/

namespace CloudEnvelope.JsonEnvelope

/-- Data that is not taken for JSON: there is none, or it is no text, or its content type is not
JSON. -/
def PlainData (e : Event) : Prop :=
  e.data = [] ∨ Utf8.decode? e.data = none ∨ MediaType.isJson e.dataContentType = false

/-- The form in which an extension is read from JSON: bytes are their text in base64. -/
def restored : ExtensionValue → Value
  | .bool b => .bool b
  | .int n => .int n
  | .text t => .text t
  | .bytes content => .text (Base64.encodeString content)

theorem toValue_ofExtension (x : ExtensionValue) :
    (Member.ofExtension x).toJson.toValue = restored x := by
  cases x <;> rfl

/-! ### Data -/

/-- Data that is not taken for JSON is written in base64 or, when it is a text of another type, as
this text. -/
theorem dataMember_of_plain {contentType : Option Text} {data : Bytes}
    (h : Utf8.decode? data = none ∨ MediaType.isJson contentType = false) :
    dataMember contentType data
        = (("data_base64" : Text), Json.text (Base64.encodeString data)) ∨
      ∃ cs, Utf8.decode? data = some cs ∧ MediaType.isJson contentType = false ∧
        dataMember contentType data = (("data" : Text), Json.text (Text.ofChars cs)) := by
  simp only [dataMember]
  cases MediaType.isText contentType with
  | false => exact .inl rfl
  | true =>
    cases hdecode : Utf8.decode? data with
    | none => exact .inl rfl
    | some cs =>
      have hjson : MediaType.isJson contentType = false := h.resolve_left (by simp [hdecode])
      exact .inr ⟨cs, rfl, hjson, by simp [hjson]⟩

theorem base64Data_encode (data : Bytes) :
    base64Data (.text (Base64.encodeString data)) = .ok data := by
  have hscalars : Text.scalars? (Base64.encodeString data) = some (Base64.encode data) := by
    rw [Text.scalars?_ofString, Base64.encodeString, String.toList_ofList]
  have hascii : (Base64.encode data).all (·.toNat < 0x80) := by
    rw [List.all_eq_true]
    exact fun c hc => decide_eq_true (Base64.lt_of_mem_encode hc)
  simp only [base64Data, hscalars, if_pos hascii, Base64.decode?_encode]
  rfl

theorem plainData_of_not_json {contentType : Option Text} {data : Bytes} {cs : List Char}
    (hdecode : Utf8.decode? data = some cs) (hjson : MediaType.isJson contentType = false) :
    plainData ((contentType.map Json.text).getD .null) (.text (Text.ofChars cs)) = .ok data := by
  cases contentType with
  | none => cases hjson
  | some mediaType =>
    simp only [Option.map_some, Option.getD_some, plainData, hjson, Bool.false_eq_true, if_false,
      textData, Text.utf8?_ofChars, Utf8.encode_of_decode? hdecode]

/-- The reader finds the data of the event where the writer puts it. -/
theorem data_of_describes {e : Event} {xs : List (Text × ExtensionValue)} {ms : List (Text × Json)}
    (h : Describes e xs ms) (hplain : PlainData e) :
    data ms ((e.dataContentType.map Json.text).getD .null) = .ok e.data := by
  rw [data, h.data, h.dataBase64, dataEntries]
  by_cases hempty : e.data = []
  · rw [hempty]
    rfl
  · rw [if_neg (by simpa using hempty)]
    -- Either member takes the place of the other, and the reader looks for both.
    rcases dataMember_of_plain (hplain.resolve_left hempty) with hmember | ⟨cs, hcs, hjson, hmember⟩
    · rw [hmember]
      show (base64Data (.text (Base64.encodeString e.data))).mapError malformed = .ok e.data
      rw [base64Data_encode]
      rfl
    · rw [hmember]
      show plainData ((e.dataContentType.map Json.text).getD .null) (.text (Text.ofChars cs)) = _
      exact plainData_of_not_json hcs hjson

/-! ### Writing -/

theorem restorable_ofAttribute (a : AttributeValue) :
    Json.Restorable .unicode (Member.ofAttribute a).toJson := by
  cases a <;> exact Json.unpaired_of_unescaped _

theorem restorable_ofExtension (x : ExtensionValue) :
    Json.Restorable .unicode (Member.ofExtension x).toJson := by
  cases x with
  | bool b => trivial
  | int n => trivial
  | text t => exact Json.unpaired_of_unescaped t
  | bytes content => exact Json.unpaired_of_unescaped _

theorem restorable_dataMember {contentType : Option Text} {data : Bytes}
    (h : Utf8.decode? data = none ∨ MediaType.isJson contentType = false) :
    Json.Restorable .unicode (dataMember contentType data).2 := by
  rcases dataMember_of_plain h with hmember | ⟨cs, -, -, hmember⟩ <;> rw [hmember] <;>
    exact Json.unpaired_of_unescaped _

/-- The object of an event is read back from JSON as it is when its data is. -/
theorem restorable_object {e : Event} {xs : List (Text × ExtensionValue)}
    (hxs : ExtensionValue.ofEntries e.extensions.entries = .ok xs)
    (hnames : ∀ x ∈ xs, isMemberName x.1 = false)
    (hdata : e.data = [] ∨ Json.Restorable .unicode (dataMember e.dataContentType e.data).2) :
    Json.Restorable .unicode (.object (objectMembers e xs)) := by
  refine ⟨nodup_objectMembers hxs hnames, Json.membersRestorable_iff.mpr fun m hm => ?_⟩
  refine ⟨Json.unpaired_of_unescaped m.1, ?_⟩
  rw [objectMembers, List.mem_append, List.mem_append] at hm
  rcases hm with (hm | hm) | hm
  · obtain ⟨m', hm', rfl⟩ := List.mem_map.mp hm
    obtain ⟨a, -, rfl⟩ := List.mem_map.mp hm'
    exact restorable_ofAttribute a.2
  · obtain ⟨m', hm', rfl⟩ := List.mem_map.mp hm
    obtain ⟨x, -, rfl⟩ := List.mem_map.mp hm'
    exact restorable_ofExtension x.2
  · obtain ⟨m', hm', rfl⟩ := List.mem_map.mp hm
    rw [dataEntries] at hm'
    split at hm'
    · cases hm'
    · rename_i hempty
      rw [List.mem_singleton.mp hm']
      exact hdata.resolve_left (by simpa using hempty)

/-- What is read of the bytes of a value is what is read of the value, with its numbers as they are
written. -/
theorem deserialize_eq_ofJson_settled {j : Json} {raw : Bytes} (hlegible : Json.Legible .unicode j)
    (hraw : (j.write .unicode).utf8? = some raw) : deserialize raw = ofJson j.settled := by
  obtain ⟨cs, hcs, rfl⟩ := Text.utf8?_eq_some_iff.mp hraw
  have hread := Json.read?_write hlegible (Text.loneFree_iff.mpr ⟨cs, hcs⟩)
  rw [hcs, Text.chars_ofChars] at hread
  rw [deserialize, Utf8.decode?_encode]
  simp only [hread]

/-- What is read of the bytes of an event is what is read of its object. -/
theorem deserialize_eq_ofJson {e : Event} {xs : List (Text × ExtensionValue)} {raw : Bytes}
    (hrestorable : Json.Restorable .unicode (.object (objectMembers e xs)))
    (hraw : ((Json.object (objectMembers e xs)).write .unicode).utf8? = some raw) :
    deserialize raw = ofJson (.object (objectMembers e xs)) := by
  rw [deserialize_eq_ofJson_settled hrestorable.legible hraw, hrestorable.settled_eq]

/-- An event whose data is not taken for JSON is read from its object. -/
theorem deserialize_of_serialize {e : Event} {raw : Bytes} (hplain : PlainData e)
    (h : serialize e = .ok raw) :
    ∃ xs ms, ExtensionValue.ofEntries e.extensions.entries = .ok xs ∧ Describes e xs ms ∧
      deserialize raw = ofJson (.object ms) := by
  obtain ⟨xs, hxs, hnames, hraw⟩ := serialize_eq_ok_iff.mp h
  have hrestorable := restorable_object hxs hnames (hplain.imp_right restorable_dataMember)
  exact ⟨xs, _, hxs, describes_objectMembers hnames, deserialize_eq_ofJson hrestorable hraw⟩

/-! ### Reading -/

theorem toValue_getD_text (t : Option Text) :
    ((t.map Json.text).getD .null).toValue = (t.map Value.text).getD .null := by
  cases t <;> rfl

/-- A time is read back in its form inside an event, a local time as UTC. -/
theorem optional_time {time : Option DateTime}
    (h : ∀ t ∈ time, (t.offset.getD .utc).WholeMinutes) :
    Field.optional Field.time
        ((time.map fun t => Json.text (Text.ofChars t.rfc3339)).getD .null).toValue
      = .ok (time.map DateTime.assumeUtc) := by
  cases time with
  | none => rfl
  | some t =>
    show (Field.time (.text (Text.ofChars t.rfc3339))).map some = _
    rw [Field.time, Text.scalars?_ofChars, Field.ofScalars,
      TimeReading.ofChars_rfc3339 t (h t rfl)]
    rfl

/-- The extensions of an object are those that are written. -/
theorem extensions_of_outlines {e : Event} {xs : List (Text × ExtensionValue)}
    {ms : List (Text × Json)} (h : Outlines e xs ms) :
    extensions ms = (xs.map fun x => (x.1, restored x.2)).map fun x => (.text x.1, x.2) := by
  rw [extensions, h.extensions, written, extensionEntries, List.map_map, List.map_map, List.map_map]
  refine List.map_congr_left fun x _ => ?_
  show ((Value.text x.1, (Member.ofExtension x.2).toJson.toValue) : Value × Value) = _
  rw [toValue_ofExtension]
  rfl

theorem demand_of_member? {ms : List (Text × Json)} {name : String} {t : Text}
    (h : Json.member? name ms = some (.text t)) : demand ms name = .ok (.text t) := by
  simp only [demand, h]
  rfl

/-- The reader looks at the members one by one and comes to the draft of the event, with the data
that it finds.  What remains is to validate the draft. -/
theorem ofJson_of_outlines {e : Event} {xs : List (Text × ExtensionValue)}
    {ms : List (Text × Json)} {content : Bytes} (hversion : e.specversion = Event.currentVersion)
    (h : Outlines e xs ms)
    (hdata : data ms ((e.dataContentType.map Json.text).getD .null) = .ok content) :
    ofJson (.object ms) = (Event.validate (({ e with data := content } : Event).draft
      ((e.time.map fun t => Json.text (Text.ofChars t.rfc3339)).getD .null).toValue
      (xs.map fun x => (x.1, restored x.2)))).mapError fun ps => malformed (.invalid ps) := by
  have hmembers : members (.object ms) = .ok ms := by
    simp only [members, h.specversion, if_pos hversion]
  rw [Event.draft, ← extensions_of_outlines h]
  simp only [ofJson, hmembers, bind, Except.bind, h.dataContentType, hdata,
    demand_of_member? h.id, demand_of_member? h.source, demand_of_member? h.type, h.time,
    h.dataSchema, h.subject, toValue_getD_text]
  cases Event.validate _ <;> rfl

/-- The event of an object is what the draft of its members becomes. -/
theorem exists_ofJson {e : Event} {xs : List (Text × ExtensionValue)} {ms : List (Text × Json)}
    (hversion : e.specversion = Event.currentVersion)
    (htime : ∀ t ∈ e.time, (t.offset.getD .utc).WholeMinutes) (hplain : PlainData e)
    (hxs : ExtensionValue.ofEntries e.extensions.entries = .ok xs) (h : Describes e xs ms) :
    ∃ d, ofJson (.object ms) = .ok d ∧ e.ReadBack restored d := by
  have hinstant : (e.time.map DateTime.assumeUtc).map DateTime.instant
      = e.time.map DateTime.instant := by
    rw [Option.map_map]
    rfl
  have haware : ∀ t ∈ e.time.map DateTime.assumeUtc, t.offset.isSome := by
    intro t ht
    obtain ⟨s, -, rfl⟩ := Option.map_eq_some_iff.mp ht
    rfl
  obtain ⟨d, hd, hback⟩ := Event.exists_validate_draft hversion hxs
    (optional_time htime) hinstant haware
  refine ⟨d, ?_, hback⟩
  rw [ofJson_of_outlines hversion h.toOutlines (data_of_describes h hplain), hd]
  rfl

/-- An event whose data is not taken for JSON is read back from JSON, whenever it is written.  Its
data is the same bytes, its time the same instant, and its extensions are their extension values in
their order, bytes as their text in base64. -/
theorem deserialize_serialize (e : Event) (hversion : e.specversion = Event.currentVersion)
    (htime : ∀ t ∈ e.time, ∃ o, t.offset = some o ∧ o.WholeMinutes) (hplain : PlainData e)
    {raw : Bytes} (h : EventFormat.json.serialize e = .ok raw) :
    ∃ d, deserialize raw = .ok d ∧ e.ReadBack restored d := by
  have hserialize : serialize e = .ok raw := Except.mapError_eq_ok_iff.mp h
  have hwhole : ∀ t ∈ e.time, (t.offset.getD .utc).WholeMinutes :=
    fun t ht => Offset.wholeMinutes_getD (htime t ht)
  obtain ⟨xs, ms, hxs, hdescribes, hread⟩ := deserialize_of_serialize hplain hserialize
  rw [hread]
  exact exists_ofJson hversion hwhole hplain hxs hdescribes

/-- An event in a zone east of UTC, with data that is no text, and bytes as an extension. -/
def easternNoon : Event where
  specversion := Event.currentVersion
  id := "2"
  source := "urn:\"x\""
  type := "u"
  time := some ⟨⟨2024, 2, 29, by decide, by decide⟩,
    ⟨12, 0, 0, 5, by decide, TimeOfDay.midnight.minute_lt, TimeOfDay.midnight.second_lt, by decide⟩,
    some ⟨19800000000, by decide⟩⟩
  dataContentType := some "application/json"
  dataSchema := none
  subject := some "s"
  data := [0xFF, 0x00]
  extensions := .ofList [("key", .bytes [0x01]), ("n", .int (-1))]
  id_ne := by decide
  source_ne := by decide
  type_ne := by decide

theorem deserialize_serialize_easternNoon :
    easternNoon.specversion = Event.currentVersion ∧
      (∀ t ∈ easternNoon.time, ∃ o, t.offset = some o ∧ o.WholeMinutes) ∧ PlainData easternNoon ∧
      ∃ raw, EventFormat.json.serialize easternNoon = .ok raw ∧
        ∃ d, deserialize raw = .ok d ∧ easternNoon.ReadBack restored d := by
  have htime : ∀ t ∈ easternNoon.time, ∃ o, t.offset = some o ∧ o.WholeMinutes := by
    rintro t ⟨⟩
    exact ⟨_, rfl, rfl⟩
  have hplain : PlainData easternNoon := .inr (.inl rfl)
  have hserialize : (EventFormat.json.serialize easternNoon).toOption.isSome := by decide +kernel
  cases hraw : EventFormat.json.serialize easternNoon with
  | error f =>
    rw [hraw] at hserialize
    cases hserialize
  | ok raw =>
    exact ⟨rfl, htime, hplain, raw, rfl, deserialize_serialize easternNoon rfl htime hplain hraw⟩

end CloudEnvelope.JsonEnvelope
