import CloudEnvelope.Proofs.Format.JsonEnvelope
import CloudEnvelope.Proofs.Json.Ascii
import CloudEnvelope.Proofs.Json.Denotation
import Mathlib.Tactic.Common

/-!
# Data taken for JSON

Data whose content type is JSON, or that has none, stands in the member `data` as the value that it
denotes, and as its text when it denotes none.  The reader writes a value that it finds there anew.
`JsonEnvelope.deserialize_serialize_declared`: of declared JSON the value is kept, and its new form
stays as it is from then on.

A text in this member may be there for either reason, and the reader cannot tell which.  Without a
content type it takes every text for the data itself, so that data which denotes a text is not read
back (`JsonEnvelope.deserialize_serialize_undeclared`).  With one it takes every text for a value,
so that data which is no JSON is not read back (`JsonEnvelope.deserialize_serialize_unreadable`).
-/

namespace CloudEnvelope

/-- The value that bytes denote as a JSON text in UTF-8. -/
def Json.ofBytes? (data : Bytes) : Option Json := (Utf8.decode? data).bind Json.read?

theorem Json.ofBytes?_eq_some_iff {data : Bytes} {v : Json} :
    Json.ofBytes? data = some v ↔ ∃ cs, Utf8.decode? data = some cs ∧ Json.read? cs = some v :=
  Option.bind_eq_some_iff

theorem Json.ofBytes?_of_decode? {data : Bytes} {cs : List Char}
    (h : Utf8.decode? data = some cs) : Json.ofBytes? data = Json.read? cs := by
  rw [Json.ofBytes?, h, Option.bind_some]

namespace JsonEnvelope

/-- Bytes are read through the value that they denote. -/
theorem deserialize_of_ofBytes? {raw : Bytes} {j : Json} (h : Json.ofBytes? raw = some j) :
    deserialize raw = ofJson j := by
  obtain ⟨cs, hcs, hread⟩ := Json.ofBytes?_eq_some_iff.mp h
  simp only [deserialize, hcs, hread]

/-- Bytes that denote no value are no event. -/
theorem exists_fault_of_ofBytes? {raw : Bytes} (h : Json.ofBytes? raw = none) :
    ∃ fault, deserialize raw = .error (malformed fault) := by
  unfold deserialize
  cases hcs : Utf8.decode? raw with
  | none => exact ⟨_, rfl⟩
  | some cs =>
    rw [Json.ofBytes?_of_decode? hcs] at h
    dsimp only
    rw [h]
    exact ⟨_, rfl⟩

theorem json_serialize_eq_ok_iff {e : Event} {raw : Bytes} :
    EventFormat.json.serialize e = .ok raw ↔ serialize e = .ok raw :=
  Except.mapError_eq_ok_iff

/-! ### The member of the data -/

theorem isText_of_isJson {contentType : Option Text} (h : MediaType.isJson contentType) :
    MediaType.isText contentType := by
  cases contentType with
  | none => rfl
  | some mediaType => simp [MediaType.isText, h]

theorem dataMember_of_value {contentType : Option Text} {data : Bytes} {v : Json}
    (hjson : MediaType.isJson contentType) (hv : Json.ofBytes? data = some v) :
    dataMember contentType data = (("data" : Text), v) := by
  obtain ⟨cs, hcs, hread⟩ := Json.ofBytes?_eq_some_iff.mp hv
  simp only [dataMember, isText_of_isJson hjson, hjson, if_true, hcs, hread]

theorem dataMember_of_unreadable {contentType : Option Text} {data : Bytes} {cs : List Char}
    (hjson : MediaType.isJson contentType) (hcs : Utf8.decode? data = some cs)
    (hnone : Json.ofBytes? data = none) :
    dataMember contentType data = (("data" : Text), .text (Text.ofChars cs)) := by
  rw [Json.ofBytes?_of_decode? hcs] at hnone
  simp only [dataMember, isText_of_isJson hjson, hjson, if_true, hcs, hnone]

theorem exists_text_of_plain {contentType : Option Text} {data : Bytes}
    (h : Utf8.decode? data = none ∨ MediaType.isJson contentType = false) :
    ∃ cs, (dataMember contentType data).2 = .text (Text.ofChars cs) := by
  rcases dataMember_of_plain h with hbase64 | ⟨cs, -, -, htext⟩
  · exact ⟨(Base64.encodeString data).toList, by rw [hbase64]; rfl⟩
  · exact ⟨cs, by rw [htext]⟩

/-- The member of the data holds the value that the data denotes, if it is taken for JSON and
denotes one, and else a text without lone surrogates. -/
theorem dataMember_cases (contentType : Option Text) (data : Bytes) :
    (MediaType.isJson contentType ∧ Json.ofBytes? data = some (dataMember contentType data).2) ∨
      (MediaType.isJson contentType → Json.ofBytes? data = none) ∧
        ∃ cs, (dataMember contentType data).2 = .text (Text.ofChars cs) := by
  by_cases hjson : MediaType.isJson contentType
  · cases hv : Json.ofBytes? data with
    | some v =>
      rw [dataMember_of_value hjson hv]
      exact .inl ⟨hjson, rfl⟩
    | none =>
      refine .inr ⟨fun _ => rfl, ?_⟩
      cases hcs : Utf8.decode? data with
      | none => exact exists_text_of_plain (.inl hcs)
      | some cs => exact ⟨cs, by rw [dataMember_of_unreadable hjson hcs hv]⟩
  · exact .inr ⟨fun h => absurd h hjson, exists_text_of_plain (.inr (Bool.eq_false_iff.mpr hjson))⟩

theorem ne_nil_of_value {data : Bytes} {v : Json} (hv : Json.ofBytes? data = some v) :
    data ≠ [] := by
  rintro rfl
  cases hv

/-- A value is written in the form of ASCII, unless it is a text without a content type. -/
theorem plainData_of_value {contentType : Option Text} {v : Json}
    (hjson : MediaType.isJson contentType) (hv : contentType = none → ∀ t, v ≠ .text t) :
    plainData ((contentType.map Json.text).getD .null) v = writtenData v := by
  cases v with
  | text t =>
    cases contentType with
    | none => exact absurd rfl (hv rfl t)
    | some mediaType => simp [plainData, hjson]
  | _ => rfl

/-- Every value has a form in ASCII. -/
theorem exists_writtenData (v : Json) :
    ∃ content, writtenData v = .ok content ∧ (v.write .ascii).utf8? = some content := by
  obtain ⟨cs, hcs⟩ := Text.loneFree_iff.mp (Json.loneFree_write_ascii v)
  have hbytes : (v.write .ascii).utf8? = some (Utf8.encode cs) :=
    Text.utf8?_eq_some_iff.mpr ⟨cs, hcs, rfl⟩
  exact ⟨Utf8.encode cs, by rw [writtenData, hbytes], hbytes⟩

/-! ### The event that is read back -/

/-- The event with other data, with an offset of its time, and with its extensions as JSON has
them. -/
def restoredEvent (e : Event) (xs : List (Text × ExtensionValue)) (content : Bytes) : Event :=
  { e with
    time := e.time.map .assumeUtc
    data := content
    extensions := .ofList (xs.map fun x => (x.1, restored x.2)) }

theorem dataEntries_of_dataMember {e : Event} {j : Json} (hdata : e.data ≠ [])
    (hmember : dataMember e.dataContentType e.data = (("data" : Text), j)) :
    dataEntries e = [(("data" : Text), .json j)] := by
  rw [dataEntries, hmember, if_neg (by simpa using hdata)]

/-- What is written has a form in UTF-8, and so has the value of its data. -/
theorem loneFree_of_serialize {e : Event} {j : Json} {raw : Bytes} (hdata : e.data ≠ [])
    (hmember : dataMember e.dataContentType e.data = (("data" : Text), j))
    (h : serialize e = .ok raw) : (j.write .unicode).LoneFree := by
  obtain ⟨xs, -, -, hraw⟩ := serialize_eq_ok_iff.mp h
  have hlone : ((Json.object (objectMembers e xs)).write .unicode).LoneFree :=
    Text.isSome_utf8?_iff.mp (by rw [hraw]; rfl)
  refine (Json.loneFree_write_object_iff.mp hlone ("data", j) ?_).2
  rw [objectMembers, dataEntries_of_dataMember hdata hmember]
  exact List.mem_append_right _ List.mem_cons_self

/-- An event is read back with the data that the reader makes of the member of its data. -/
theorem deserialize_of_dataMember {e : Event} {j : Json} {raw content : Bytes}
    (hversion : e.specversion = Event.currentVersion)
    (htime : ∀ t ∈ e.time, (t.offset.getD .utc).WholeMinutes) (hdata : e.data ≠ [])
    (hmember : dataMember e.dataContentType e.data = (("data" : Text), j))
    (hj : Json.Restorable .unicode j)
    (hcontent : plainData ((e.dataContentType.map Json.text).getD .null) j = .ok content)
    (h : serialize e = .ok raw) :
    ∃ xs, ExtensionValue.ofEntries e.extensions.entries = .ok xs ∧
      deserialize raw = .ok (restoredEvent e xs content) := by
  obtain ⟨xs, hxs, hnames, hraw⟩ := serialize_eq_ok_iff.mp h
  have hdescribes := describes_objectMembers (e := e) hnames
  have hrestorable : Json.Restorable .unicode (.object (objectMembers e xs)) :=
    restorable_object hxs hnames (.inr (by rwa [hmember]))
  have hread : JsonEnvelope.data (objectMembers e xs)
      ((e.dataContentType.map Json.text).getD .null) = .ok content := by
    rw [JsonEnvelope.data, hdescribes.data, hdescribes.dataBase64,
      dataEntries_of_dataMember hdata hmember]
    exact hcontent
  refine ⟨xs, hxs, ?_⟩
  have hvalid : Event.validate (({ e with data := content } : Event).draft _
      (xs.map fun x => (x.1, restored x.2))) = .ok (restoredEvent e xs content) :=
    Event.validate_draft hversion (optional_time htime)
  rw [deserialize_eq_ofJson hrestorable hraw,
    ofJson_of_outlines hversion hdescribes.toOutlines hread, hvalid]
  rfl

/-! ### Written again -/

/-- The extension value of the form in which an extension is read. -/
def restoredExtension : ExtensionValue → ExtensionValue
  | .bytes content => .text (Base64.encodeString content)
  | x => x

theorem ofValue?_restored (x : ExtensionValue) :
    ExtensionValue.ofValue? (restored x) = some (restoredExtension x) := by
  cases x <;> rfl

theorem toJson_restoredExtension (x : ExtensionValue) :
    (Member.ofExtension (restoredExtension x)).toJson = (Member.ofExtension x).toJson := by
  cases x <;> rfl

/-- An extension that is read is accepted again. -/
theorem reads_restored {e : Text × Value} {x : Text × ExtensionValue}
    (h : ExtensionValue.Reads e x) :
    ExtensionValue.Reads (x.1, restored x.2) (x.1, restoredExtension x.2) := by
  obtain ⟨hname, hvalue⟩ := h
  refine ⟨rfl, ?_⟩
  rw [ExtensionValue.ofValue] at hvalue ⊢
  rw [hname, ofValue?_restored]
  split at hvalue
  · cases hvalue
  · rename_i hfree
    rw [if_neg hfree]

theorem ofEntries_restored {es : List (Text × Value)} {xs : List (Text × ExtensionValue)}
    (h : ExtensionValue.ofEntries es = .ok xs) :
    ExtensionValue.ofEntries (xs.map fun x => (x.1, restored x.2))
      = .ok (xs.map fun x => (x.1, restoredExtension x.2)) := by
  rw [ExtensionValue.ofEntries_eq_ok_iff] at h ⊢
  rw [List.forall₂_map_left_iff, List.forall₂_map_right_iff]
  induction h with
  | nil => exact .nil
  | cons hread _ ih => exact .cons (reads_restored hread) ih

theorem written_extensionEntries_restored (xs : List (Text × ExtensionValue)) :
    written (extensionEntries (xs.map fun x => (x.1, restoredExtension x.2)))
      = written (extensionEntries xs) := by
  simp only [written, extensionEntries, List.map_map]
  refine List.map_congr_left fun x _ => ?_
  exact congrArg (Prod.mk x.1) (toJson_restoredExtension x.2)

/-- An event that is read back is written as before when its data is, and its time had an offset. -/
theorem serialize_restoredEvent {e : Event} {xs : List (Text × ExtensionValue)}
    {content raw : Bytes} (htime : ∀ t ∈ e.time, t.offset.isSome)
    (hxs : ExtensionValue.ofEntries e.extensions.entries = .ok xs)
    (hdata : dataEntries (restoredEvent e xs content) = dataEntries e)
    (h : serialize e = .ok raw) : serialize (restoredEvent e xs content) = .ok raw := by
  obtain ⟨ys, hys, hnames, hraw⟩ := serialize_eq_ok_iff.mp h
  rw [hxs] at hys
  cases hys
  have hattributes : attributeEntries (restoredEvent e xs content) = attributeEntries e := by
    have haware : e.time.map DateTime.assumeUtc = e.time := by
      cases htimes : e.time with
      | none => rfl
      | some t =>
        obtain ⟨o, ho⟩ := Option.isSome_iff_exists.mp (htime t htimes)
        obtain ⟨date, time, offset⟩ := t
        cases ho
        rfl
    simp only [attributeEntries, Event.attributes, restoredEvent, haware]
  have hentries : (restoredEvent e xs content).extensions.entries
      = xs.map fun x => (x.1, restored x.2) := Event.entries_ofList_form hxs restored
  refine serialize_eq_ok_iff.mpr ⟨xs.map fun x => (x.1, restoredExtension x.2), ?_, ?_, ?_⟩
  · rw [hentries]
    exact ofEntries_restored hxs
  · exact List.forall_mem_map.mpr hnames
  · rw [objectMembers, hattributes, written_extensionEntries_restored, hdata, ← objectMembers]
    exact hraw

/-! ### Declared JSON -/

/-- A value that the reader writes anew is read back as its form in ASCII, which denotes it. -/
theorem deserialize_of_writtenData {e : Event} {v : Json} {raw : Bytes}
    (hversion : e.specversion = Event.currentVersion)
    (htime : ∀ t ∈ e.time, (t.offset.getD .utc).WholeMinutes) (hdata : e.data ≠ [])
    (hmember : dataMember e.dataContentType e.data = (("data" : Text), v))
    (hv : Json.Restorable .unicode v)
    (hwritten : plainData ((e.dataContentType.map Json.text).getD .null) v = writtenData v)
    (h : serialize e = .ok raw) :
    ∃ xs content, ExtensionValue.ofEntries e.extensions.entries = .ok xs ∧
      deserialize raw = .ok (restoredEvent e xs content) ∧
        (v.write .ascii).utf8? = some content ∧ Json.ofBytes? content = some v := by
  obtain ⟨content, hcontent, hascii⟩ := exists_writtenData v
  rw [← hwritten] at hcontent
  obtain ⟨xs, hxs, hread⟩ := deserialize_of_dataMember hversion htime hdata hmember hv hcontent h
  refine ⟨xs, content, hxs, hread, hascii, Json.ofBytes?_eq_some_iff.mpr ?_⟩
  -- The value was written without escapes before, so no escape of it is a half of a pair.
  have hvalue := Json.read?_write_ascii hv (loneFree_of_serialize hdata hmember h)
  obtain ⟨cs, hcs, rfl⟩ := Text.utf8?_eq_some_iff.mp hascii
  rw [hcs, Text.chars_ofChars] at hvalue
  exact ⟨cs, Utf8.decode?_encode cs, hvalue⟩

theorem restorable_of_ofBytes? {data : Bytes} {v : Json} (hv : Json.ofBytes? data = some v)
    (hfloat : v.FloatFree) : Json.Restorable .unicode v := by
  obtain ⟨cs, -, hread⟩ := Json.ofBytes?_eq_some_iff.mp hv
  exact Json.restorable_of_read? hread hfloat

/-- Data that is declared to be JSON and denotes a value is read back as the form of this value in
ASCII, which denotes the same value.  The event that is read back is written as the same bytes, so
that reading it back changes nothing anymore. -/
theorem deserialize_serialize_declared (e : Event)
    (hversion : e.specversion = Event.currentVersion)
    (htime : ∀ t ∈ e.time, ∃ o, t.offset = some o ∧ o.WholeMinutes) {mediaType : Text}
    (htype : e.dataContentType = some mediaType) (hjson : MediaType.isJson (some mediaType))
    {v : Json} (hv : Json.ofBytes? e.data = some v) (hfloat : v.FloatFree) {raw : Bytes}
    (h : EventFormat.json.serialize e = .ok raw) :
    ∃ d, deserialize raw = .ok d ∧ (v.write .ascii).utf8? = some d.data ∧
      Json.ofBytes? d.data = some v ∧ EventFormat.json.serialize d = .ok raw := by
  have hserialize : serialize e = .ok raw := json_serialize_eq_ok_iff.mp h
  have hwhole : ∀ t ∈ e.time, (t.offset.getD .utc).WholeMinutes :=
    fun t ht => Offset.wholeMinutes_getD (htime t ht)
  have haware : ∀ t ∈ e.time, t.offset.isSome := by
    intro t ht
    obtain ⟨o, ho, -⟩ := htime t ht
    rw [ho]
    rfl
  rw [← htype] at hjson
  have hdata := ne_nil_of_value hv
  have hmember := dataMember_of_value hjson hv
  have hwritten := plainData_of_value hjson (v := v) fun hnone =>
    absurd (htype.symm.trans hnone) (Option.some_ne_none _)
  obtain ⟨xs, content, hxs, hread, hascii, hvalue⟩ := deserialize_of_writtenData hversion hwhole
    hdata hmember (restorable_of_ofBytes? hv hfloat) hwritten hserialize
  refine ⟨_, hread, hascii, hvalue, json_serialize_eq_ok_iff.mpr ?_⟩
  refine serialize_restoredEvent haware hxs ?_ hserialize
  rw [dataEntries_of_dataMember hdata hmember]
  exact dataEntries_of_dataMember (ne_nil_of_value hvalue) (dataMember_of_value hjson hvalue)

/-- Data with blanks, an escaped pair of surrogates and a name that stands twice. -/
def repeatedMember : Event :=
  { easternNoon with
    dataContentType := some "text/x+json; charset=utf-8"
    data := Utf8.ofString
      " \x7b\"a\": 1, \"\\ud83d\\ude00\": \"\\u0001é\", \"a\": [null, -12]\x7d\n" }

/-- The value that this data denotes: the repeated name keeps its place and takes its last value. -/
def repeatedMemberValue : Json :=
  .object [("a", .array [.null, .int (-12)]), ("😀", .text "\x01é")]

theorem ofBytes?_repeatedMember : Json.ofBytes? repeatedMember.data = some repeatedMemberValue := by
  decide +kernel

theorem deserialize_serialize_declared_repeatedMember :
    repeatedMember.specversion = Event.currentVersion ∧
      (∀ t ∈ repeatedMember.time, ∃ o, t.offset = some o ∧ o.WholeMinutes) ∧
      repeatedMember.dataContentType = some "text/x+json; charset=utf-8" ∧
      MediaType.isJson (some "text/x+json; charset=utf-8") ∧
      Json.ofBytes? repeatedMember.data = some repeatedMemberValue ∧
      repeatedMemberValue.FloatFree ∧
      ∃ raw, EventFormat.json.serialize repeatedMember = .ok raw ∧
        ∃ d, deserialize raw = .ok d ∧ (repeatedMemberValue.write .ascii).utf8? = some d.data ∧
          Json.ofBytes? d.data = some repeatedMemberValue ∧
          EventFormat.json.serialize d = .ok raw := by
  have htime : ∀ t ∈ repeatedMember.time, ∃ o, t.offset = some o ∧ o.WholeMinutes := by
    rintro t ⟨⟩
    exact ⟨_, rfl, rfl⟩
  have hjson : MediaType.isJson (some "text/x+json; charset=utf-8") := rfl
  have hvalue := ofBytes?_repeatedMember
  have hfloat : repeatedMemberValue.FloatFree := ⟨⟨trivial, trivial, trivial⟩, trivial, trivial⟩
  obtain ⟨raw, hraw⟩ : ∃ raw, EventFormat.json.serialize repeatedMember = .ok raw := by
    rw [← Except.isSome_toOption_iff]
    decide +kernel
  exact ⟨rfl, htime, rfl, hjson, hvalue, hfloat, raw, hraw,
    deserialize_serialize_declared repeatedMember rfl htime rfl hjson hvalue hfloat hraw⟩

/-! ### Texts that may be read in two ways -/

theorem wholeMinutes_of_time_eq_none {e : Event} (h : e.time = none) :
    ∀ t ∈ e.time, (t.offset.getD .utc).WholeMinutes := by
  rw [h]
  intro t ht
  exact absurd ht (Option.not_mem_none t)

/-- The UTF-8 form of a text is no JSON text for it. -/
theorem ofBytes?_ne_text {t : Text} {data : Bytes} (h : t.utf8? = some data) :
    Json.ofBytes? data ≠ some (.text t) := by
  intro hv
  obtain ⟨cs, rfl, rfl⟩ := Text.utf8?_eq_some_iff.mp h
  obtain ⟨cs', hcs', hread⟩ := Json.ofBytes?_eq_some_iff.mp hv
  rw [Utf8.decode?_encode] at hcs'
  cases hcs'
  -- A JSON text for it would be longer than it is, by the quotes.
  have hlt := Json.length_lt_of_read?_text hread
  rw [Text.ofChars, List.length_map] at hlt
  exact absurd hlt (Nat.lt_irrefl _)

/-- A text in the member of the data is read back as its UTF-8 form when there is no content
type. -/
theorem deserialize_of_text {e : Event} {t : Text} {raw : Bytes}
    (hversion : e.specversion = Event.currentVersion)
    (htime : ∀ t ∈ e.time, (t.offset.getD .utc).WholeMinutes) (htype : e.dataContentType = none)
    (hdata : e.data ≠ [])
    (hmember : dataMember e.dataContentType e.data = (("data" : Text), .text t))
    (h : serialize e = .ok raw) : ∃ d, deserialize raw = .ok d ∧ t.utf8? = some d.data := by
  have hlone : t.LoneFree := Json.loneFree_of_content
    (Json.loneFree_writeString_iff.mp (loneFree_of_serialize hdata hmember h))
  obtain ⟨cs, rfl⟩ := Text.loneFree_iff.mp hlone
  have hcontent : plainData ((e.dataContentType.map Json.text).getD .null) (.text (Text.ofChars cs))
      = .ok (Utf8.encode cs) := by
    rw [htype]
    show textData (Text.ofChars cs) = _
    rw [textData, Text.utf8?_ofChars]
  obtain ⟨xs, -, hread⟩ :=
    deserialize_of_dataMember hversion htime hdata hmember (Json.unpaired_of_unescaped _) hcontent h
  exact ⟨_, hread, Text.utf8?_ofChars cs⟩

/-- Without a content type, data that denotes no value is read back as it is.  Data that denotes a
value is read back as data that denotes the same value, unless the value is a text: then the text
itself is read back, which never denotes the same. -/
theorem deserialize_serialize_undeclared (e : Event)
    (hversion : e.specversion = Event.currentVersion)
    (htime : ∀ t ∈ e.time, (t.offset.getD .utc).WholeMinutes) (htype : e.dataContentType = none)
    (hdata : e.data ≠ []) (hutf8 : (Utf8.decode? e.data).isSome)
    (hfloat : ∀ v, Json.ofBytes? e.data = some v → v.FloatFree) {raw : Bytes}
    (h : EventFormat.json.serialize e = .ok raw) :
    ∃ d, deserialize raw = .ok d ∧ (Json.ofBytes? e.data = none → d.data = e.data) ∧
      (∀ t, Json.ofBytes? e.data = some (.text t) → t.utf8? = some d.data) ∧
      ∀ v, Json.ofBytes? e.data = some v → (Json.ofBytes? d.data = some v ↔ ∀ t, v ≠ .text t) := by
  have hserialize : serialize e = .ok raw := json_serialize_eq_ok_iff.mp h
  have hjson : MediaType.isJson e.dataContentType := by
    rw [htype]
    rfl
  obtain ⟨cs, hcs⟩ := Option.isSome_iff_exists.mp hutf8
  cases hv : Json.ofBytes? e.data with
  | none =>
    obtain ⟨d, hd, hbytes⟩ := deserialize_of_text hversion htime htype hdata
      (dataMember_of_unreadable hjson hcs hv) hserialize
    refine ⟨d, hd, fun _ => ?_, nofun, nofun⟩
    rw [Text.utf8?_ofChars, Utf8.encode_of_decode? hcs] at hbytes
    exact (Option.some.inj hbytes).symm
  | some v =>
    have hmember := dataMember_of_value hjson hv
    -- The reader takes a text for the data itself, and writes any other value anew.
    by_cases htext : ∃ t, v = .text t
    · obtain ⟨t, rfl⟩ := htext
      obtain ⟨d, hd, hbytes⟩ := deserialize_of_text hversion htime htype hdata hmember hserialize
      refine ⟨d, hd, nofun, ?_, ?_⟩
      · rintro t' ⟨⟩
        exact hbytes
      · rintro v ⟨⟩
        exact ⟨fun hsame => absurd hsame (ofBytes?_ne_text hbytes), fun hne => absurd rfl (hne t)⟩
    · have hne : ∀ t, v ≠ .text t := not_exists.mp htext
      obtain ⟨xs, content, -, hd, -, hvalue⟩ := deserialize_of_writtenData hversion htime hdata
        hmember (restorable_of_ofBytes? hv (hfloat v hv)) (plainData_of_value hjson fun _ => hne)
        hserialize
      refine ⟨_, hd, nofun, ?_, ?_⟩
      · rintro t ⟨⟩
        exact absurd rfl (hne t)
      · rintro v' ⟨⟩
        exact ⟨fun _ => hne, fun _ => hvalue⟩

/-- The same data without a content type. -/
def undeclaredMember : Event := { repeatedMember with dataContentType := none }

theorem deserialize_serialize_undeclared_repeatedMember :
    undeclaredMember.specversion = Event.currentVersion ∧
      (∀ t ∈ undeclaredMember.time, (t.offset.getD .utc).WholeMinutes) ∧
      undeclaredMember.dataContentType = none ∧ undeclaredMember.data ≠ [] ∧
      (Utf8.decode? undeclaredMember.data).isSome ∧
      (∀ v, Json.ofBytes? undeclaredMember.data = some v → v.FloatFree) ∧
      ∃ raw, EventFormat.json.serialize undeclaredMember = .ok raw ∧
        ∃ d, deserialize raw = .ok d ∧ Json.ofBytes? d.data = some repeatedMemberValue := by
  have htime : ∀ t ∈ undeclaredMember.time, (t.offset.getD .utc).WholeMinutes := by
    rintro t ⟨⟩
    rfl
  have hvalue : Json.ofBytes? undeclaredMember.data = some repeatedMemberValue :=
    ofBytes?_repeatedMember
  have hdata := ne_nil_of_value hvalue
  obtain ⟨cs, hcs, -⟩ := Json.ofBytes?_eq_some_iff.mp hvalue
  have hutf8 : (Utf8.decode? undeclaredMember.data).isSome := by
    rw [hcs]
    rfl
  have hfloat : ∀ v, Json.ofBytes? undeclaredMember.data = some v → v.FloatFree := by
    intro v hv
    rw [hvalue] at hv
    cases hv
    exact ⟨⟨trivial, trivial, trivial⟩, trivial, trivial⟩
  obtain ⟨raw, hraw⟩ : ∃ raw, EventFormat.json.serialize undeclaredMember = .ok raw := by
    rw [← Except.isSome_toOption_iff]
    decide +kernel
  obtain ⟨d, hd, -, -, hsame⟩ := deserialize_serialize_undeclared undeclaredMember rfl htime rfl
    hdata hutf8 hfloat hraw
  have hobject : ∀ t, repeatedMemberValue ≠ .text t := by
    intro t heq
    cases heq
  exact ⟨rfl, htime, rfl, hdata, hutf8, hfloat, raw, hraw, d, hd, (hsame _ hvalue).mpr hobject⟩

/-- An event whose data is the word `hi` in quotes, and has no content type. -/
def quotedWord : Event :=
  { repeatedMember with
    time := none
    dataContentType := none
    data := Utf8.ofString "\"hi\"" }

/-- Of a quoted word without a content type the quotes are lost. -/
theorem quotedWord_unquoted :
    quotedWord.specversion = Event.currentVersion ∧ quotedWord.time = none ∧
      quotedWord.dataContentType = none ∧ Json.ofBytes? quotedWord.data = some (.text "hi") ∧
        ∃ raw d, EventFormat.json.serialize quotedWord = .ok raw ∧ deserialize raw = .ok d ∧
          d.data = Utf8.ofString "hi" ∧ Json.ofBytes? d.data = none := by
  have hvalue : Json.ofBytes? quotedWord.data = some (.text "hi") := rfl
  have hnone : Json.ofBytes? (Utf8.ofString "hi") = none := rfl
  obtain ⟨raw, hraw⟩ : ∃ raw, EventFormat.json.serialize quotedWord = .ok raw :=
    Except.isSome_toOption_iff.mp rfl
  have hserialize : serialize quotedWord = .ok raw := json_serialize_eq_ok_iff.mp hraw
  have hmember := @dataMember_of_value none _ _ rfl hvalue
  obtain ⟨d, hd, hbytes⟩ := deserialize_of_text (e := quotedWord) rfl
    (wholeMinutes_of_time_eq_none rfl) rfl (ne_nil_of_value hvalue) hmember hserialize
  have hdata : d.data = Utf8.ofString "hi" := by
    rw [Text.utf8?_ofString] at hbytes
    exact (Option.some.inj hbytes).symm
  exact ⟨rfl, rfl, rfl, hvalue, raw, d, hraw, hd, hdata, by rw [hdata, hnone]⟩

/-- Declared JSON that denotes no value is never read back as it is.  The reader takes the text of
the data for a value, and writes it with quotes. -/
theorem deserialize_serialize_unreadable (e : Event)
    (hversion : e.specversion = Event.currentVersion)
    (htime : ∀ t ∈ e.time, (t.offset.getD .utc).WholeMinutes) {mediaType : Text}
    (htype : e.dataContentType = some mediaType) (hjson : MediaType.isJson (some mediaType))
    (hdata : e.data ≠ []) {cs : List Char} (hcs : Utf8.decode? e.data = some cs)
    (hnone : Json.ofBytes? e.data = none) {raw : Bytes}
    (h : EventFormat.json.serialize e = .ok raw) :
    ∃ d, deserialize raw = .ok d ∧
      ((Json.text (Text.ofChars cs)).write .ascii).utf8? = some d.data ∧
        Json.ofBytes? d.data = some (.text (Text.ofChars cs)) ∧ d.data ≠ e.data := by
  have hserialize : serialize e = .ok raw := json_serialize_eq_ok_iff.mp h
  rw [← htype] at hjson
  have hwritten := plainData_of_value hjson (v := .text (Text.ofChars cs)) fun hmissing =>
    absurd (htype.symm.trans hmissing) (Option.some_ne_none _)
  obtain ⟨xs, content, -, hd, hascii, hvalue⟩ := deserialize_of_writtenData hversion htime hdata
    (dataMember_of_unreadable hjson hcs hnone) (Json.unpaired_of_unescaped _) hwritten hserialize
  refine ⟨_, hd, hascii, hvalue, fun hsame => ?_⟩
  -- The data denotes nothing, but what is read back does.
  rw [← hsame] at hnone
  exact absurd (hvalue.symm.trans hnone) (Option.some_ne_none _)

/-- An event whose data is the word `hi`, declared to be JSON. -/
def bareWord : Event :=
  { quotedWord with
    dataContentType := some "application/json"
    data := Utf8.ofString "hi" }

theorem isJson_bareWord : MediaType.isJson bareWord.dataContentType := rfl

theorem decode?_bareWord : Utf8.decode? bareWord.data = some ['h', 'i'] := rfl

theorem ofBytes?_bareWord : Json.ofBytes? bareWord.data = none := rfl

theorem exists_serialize_bareWord : ∃ raw, EventFormat.json.serialize bareWord = .ok raw := by
  rw [← Except.isSome_toOption_iff]
  decide +kernel

theorem deserialize_serialize_unreadable_bareWord :
    bareWord.specversion = Event.currentVersion ∧
      (∀ t ∈ bareWord.time, (t.offset.getD .utc).WholeMinutes) ∧
      bareWord.dataContentType = some "application/json" ∧
      MediaType.isJson (some "application/json") ∧ bareWord.data ≠ [] ∧
      Utf8.decode? bareWord.data = some ['h', 'i'] ∧ Json.ofBytes? bareWord.data = none ∧
      ∃ raw, EventFormat.json.serialize bareWord = .ok raw ∧
        ∃ d, deserialize raw = .ok d ∧
          ((Json.text (Text.ofChars ['h', 'i'])).write .ascii).utf8? = some d.data ∧
            Json.ofBytes? d.data = some (.text (Text.ofChars ['h', 'i'])) ∧
              d.data ≠ bareWord.data := by
  have htime := wholeMinutes_of_time_eq_none (e := bareWord) rfl
  have hdata : bareWord.data ≠ [] := by decide
  obtain ⟨raw, hraw⟩ := exists_serialize_bareWord
  exact ⟨rfl, htime, rfl, isJson_bareWord, hdata, decode?_bareWord, ofBytes?_bareWord, raw, hraw,
    deserialize_serialize_unreadable bareWord rfl htime rfl isJson_bareWord hdata decode?_bareWord
      ofBytes?_bareWord hraw⟩

/-- A bare word that is declared to be JSON is read back in quotes. -/
theorem bareWord_quoted :
    bareWord.specversion = Event.currentVersion ∧ bareWord.time = none ∧
      MediaType.isJson bareWord.dataContentType ∧ bareWord.data = Utf8.ofString "hi" ∧
        Json.ofBytes? bareWord.data = none ∧
          ∃ raw d, EventFormat.json.serialize bareWord = .ok raw ∧ deserialize raw = .ok d ∧
            d.data = Utf8.ofString "\"hi\"" := by
  obtain ⟨raw, hraw⟩ := exists_serialize_bareWord
  have hserialize : serialize bareWord = .ok raw := json_serialize_eq_ok_iff.mp hraw
  have hwritten := plainData_of_value isJson_bareWord (v := .text (Text.ofChars ['h', 'i']))
    fun hmissing => absurd hmissing (Option.some_ne_none _)
  obtain ⟨xs, content, -, hd, hascii, -⟩ := deserialize_of_writtenData (e := bareWord) rfl
    (wholeMinutes_of_time_eq_none rfl) (by decide)
    (dataMember_of_unreadable isJson_bareWord decode?_bareWord ofBytes?_bareWord)
    (Json.unpaired_of_unescaped _) hwritten hserialize
  refine ⟨rfl, rfl, isJson_bareWord, rfl, ofBytes?_bareWord, raw, _, hraw, hd, ?_⟩
  have hform : ((Json.text (Text.ofChars ['h', 'i'])).write .ascii).utf8?
      = some (Utf8.ofString "\"hi\"") := rfl
  exact Option.some.inj (hascii.symm.trans hform)

end JsonEnvelope

end CloudEnvelope
