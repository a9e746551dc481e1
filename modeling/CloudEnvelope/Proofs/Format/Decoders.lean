import CloudEnvelope.Proofs.Avro.Faults
import CloudEnvelope.Proofs.Event.Problems
import CloudEnvelope.Proofs.Format.AvroEnvelope
import CloudEnvelope.Proofs.Format.JsonData

/-!
# What decoders object to

A decoder gives an event or fails as an encoding does (`Decoded`), but for a few faults that it lets
through as they are.

* JSON lets through one: data that is a text calls for a look at the content type, and the content
  type is no text (`JsonEnvelope.UntypedText`).
* Avro lets through three: an index or a number goes past its end, a time lies outside the calendar,
  or a record has empty mandatory attributes (`AvroEnvelope.Passes`).

`JsonEnvelope.deserialize_decoded_iff` and `AvroEnvelope.deserialize_passes_iff` say of all bytes
whether a decoder does so.
-/

namespace CloudEnvelope

/-- A decoder gives an event, or fails as an encoding does. -/
def Decoded (r : Except Failure Event) : Prop :=
  (∃ e, r = .ok e) ∨ ∃ f, r = .error f ∧ f.kind? = some .encoding

theorem decoded_of_failsWith {r : Except Failure Event}
    (h : r.FailsWith fun f => f.kind? = some .encoding) : Decoded r := by
  cases r with
  | ok e => exact .inl ⟨e, rfl⟩
  | error f => exact .inr ⟨f, rfl, h rfl⟩

theorem not_decoded_fault (fault : Fault) : ¬Decoded (.error (.fault fault)) := by
  rintro (⟨_, ⟨⟩⟩ | ⟨_, ⟨⟩, ⟨⟩⟩)

/-! ### JSON -/

namespace JsonEnvelope

variable {ms : List (Text × Json)} {contentType j : Json} {raw : Bytes}

/-- The failure is that of a text which is no event in JSON. -/
def IsMalformed (f : Failure) : Prop := ∃ fault, f = malformed fault

theorem isMalformed (fault : Fault) : IsMalformed (malformed fault) := ⟨fault, rfl⟩

theorem kind?_of_isMalformed {f : Failure} (h : IsMalformed f) : f.kind? = some .encoding := by
  obtain ⟨fault, rfl⟩ := h
  rfl

theorem failsWith_writtenData (j : Json) : (writtenData j).FailsWith IsMalformed := by
  unfold writtenData
  split
  · exact .ok _
  · exact .error (isMalformed _)

theorem failsWith_textData (t : Text) : (textData t).FailsWith IsMalformed := by
  unfold textData
  split
  · exact .ok _
  · exact .error (isMalformed _)

theorem failsWith_demand (ms : List (Text × Json)) (name : String) :
    (demand ms name).FailsWith IsMalformed := by
  unfold demand
  split
  · exact .ok _
  · exact .error (isMalformed _)

theorem failsWith_members (j : Json) : (members j).FailsWith IsMalformed := by
  unfold members
  split
  · split
    · split
      · exact .ok _
      · exact .error (isMalformed _)
    · exact .error (isMalformed _)
    · exact .error (isMalformed _)
  · exact .error (isMalformed _)

/-- The members of an object are taken when its version is the current one. -/
theorem members_eq_ok_iff : members j = .ok ms ↔
    j = .object ms ∧ Json.member? "specversion" ms = some (.text Event.currentVersion) := by
  constructor
  · intro h
    unfold members at h
    split at h
    · split at h
      · rename_i t hmember
        by_cases hversion : t = Event.currentVersion
        · rw [if_pos hversion] at h
          cases h
          exact ⟨rfl, hversion ▸ hmember⟩
        · rw [if_neg hversion] at h
          cases h
      · cases h
      · cases h
    · cases h
  · rintro ⟨rfl, hmember⟩
    simp only [members, hmember, if_true]

/-- The computation lets the fault of a content type through where the condition holds, and fails as
text that is no event anywhere else, if it does. -/
def PassesIff {α : Type} (P : Prop) (r : Except Failure α) : Prop :=
  P ∧ r = .error (.fault .contentTypeNotText) ∨ ¬P ∧ r.FailsWith IsMalformed

namespace PassesIff

variable {α β : Type} {P Q : Prop} {r : Except Failure α}

theorem congr (h : PassesIff P r) (hPQ : P ↔ Q) : PassesIff Q r := by
  rwa [PassesIff, ← hPQ]

theorem bind (h : PassesIff P r) {f : α → Except Failure β}
    (hf : ∀ a, (f a).FailsWith IsMalformed) : PassesIff P (r >>= f) := by
  rcases h with ⟨hP, rfl⟩ | ⟨hP, hr⟩
  · exact .inl ⟨hP, rfl⟩
  · exact .inr ⟨hP, hr.bind hf⟩

end PassesIff

/-- The data is a text and the content type is there, but is no text. -/
structure Untyped (contentType data : Json) : Prop where
  data : ∃ t, data = .text t
  contentType : contentType ≠ .null ∧ ∀ t, contentType ≠ .text t

/-- The content type is looked at for a text, and then it has to be a text itself or not there. -/
theorem passesIff_plainData (contentType data : Json) :
    PassesIff (Untyped contentType data) (plainData contentType data) := by
  unfold plainData
  split
  · rename_i t
    split
    · exact .inr ⟨fun h => h.contentType.1 rfl, failsWith_textData t⟩
    · rename_i mediaType
      refine .inr ⟨fun h => h.contentType.2 mediaType rfl, ?_⟩
      split
      · exact failsWith_writtenData _
      · exact failsWith_textData t
    · rename_i hnull htext
      exact .inl ⟨⟨⟨t, rfl⟩, hnull, htext⟩, rfl⟩
  · rename_i hdata
    exact .inr ⟨fun h => h.data.elim hdata, failsWith_writtenData _⟩

theorem passesIff_data (ms : List (Text × Json)) (contentType : Json) :
    PassesIff (Json.member? "data_base64" ms = none ∧
      ∃ j, Json.member? "data" ms = some j ∧ Untyped contentType j) (data ms contentType) := by
  unfold data
  cases Json.member? "data_base64" ms with
  | some j =>
    refine .inr ⟨?_, .mapError isMalformed⟩
    rintro ⟨⟨⟩, -⟩
  | none =>
    cases Json.member? "data" ms with
    | none =>
      refine .inr ⟨?_, .ok _⟩
      rintro ⟨-, _, ⟨⟩, -⟩
    | some j => exact (passesIff_plainData contentType j).congr (by simp)

/-- An object of the current version that has a text as its data, and a content type that is neither
a text nor null. -/
structure UntypedText (ms : List (Text × Json)) : Prop where
  specversion : Json.member? "specversion" ms = some (.text Event.currentVersion)
  noBase64 : Json.member? "data_base64" ms = none
  data : ∃ t, Json.member? "data" ms = some (.text t)
  contentType : ∃ j, Json.member? "datacontenttype" ms = some j ∧ j ≠ .null ∧ ∀ t, j ≠ .text t

theorem untypedText_iff
    (hversion : Json.member? "specversion" ms = some (.text Event.currentVersion)) :
    (Json.member? "data_base64" ms = none ∧ ∃ j, Json.member? "data" ms = some j ∧
        Untyped ((Json.member? "datacontenttype" ms).getD .null) j) ↔ UntypedText ms := by
  constructor
  · rintro ⟨hbase64, _, hdata, ⟨t, rfl⟩, htype⟩
    refine ⟨hversion, hbase64, ⟨t, hdata⟩, ?_⟩
    cases hj : Json.member? "datacontenttype" ms with
    | none =>
      rw [hj] at htype
      exact absurd rfl htype.1
    | some j =>
      rw [hj] at htype
      exact ⟨j, rfl, htype⟩
  · rintro ⟨-, hbase64, ⟨t, hdata⟩, j, hj, htype⟩
    refine ⟨hbase64, _, hdata, ⟨t, rfl⟩, ?_⟩
    rwa [hj]

theorem passesIff_ofJson (j : Json) :
    PassesIff (∃ ms, j = .object ms ∧ UntypedText ms) (ofJson j) := by
  rw [ofJson]
  cases hmembers : members j with
  | error f =>
    refine .inr ⟨?_, .error (failsWith_members j hmembers)⟩
    rintro ⟨ms, rfl, h⟩
    rw [members_eq_ok_iff.mpr ⟨rfl, h.specversion⟩] at hmembers
    cases hmembers
  | ok ms =>
    obtain ⟨rfl, hversion⟩ := members_eq_ok_iff.mp hmembers
    have hdata := passesIff_data ms ((Json.member? "datacontenttype" ms).getD .null)
    refine (hdata.congr ((untypedText_iff hversion).trans (by simp))).bind fun content => ?_
    -- Nothing after the data looks at the content type again.
    refine (failsWith_demand ms _).bind fun id => ?_
    refine (failsWith_demand ms _).bind fun source => ?_
    refine (failsWith_demand ms _).bind fun type => ?_
    dsimp only
    split
    · exact .ok _
    · exact .error (isMalformed _)

theorem passesIff_deserialize (raw : Bytes) :
    PassesIff (∃ ms, Json.ofBytes? raw = some (.object ms) ∧ UntypedText ms)
      (deserialize raw) := by
  cases hj : Json.ofBytes? raw with
  | none =>
    obtain ⟨fault, hfault⟩ := exists_fault_of_ofBytes? hj
    rw [hfault]
    refine .inr ⟨?_, .error (isMalformed fault)⟩
    rintro ⟨ms, ⟨⟩, -⟩
  | some j =>
    rw [deserialize_of_ofBytes? hj]
    exact (passesIff_ofJson j).congr (by simp)

/-- Whatever bytes are read as JSON, there is an event or an encoding failure, unless they are an
object with a text as its data and a content type that is no text.  Of those the reader lets the
fault through that it finds in the content type. -/
theorem deserialize_decoded_iff (raw : Bytes) :
    (Decoded (deserialize raw) ↔
        ¬∃ ms, Json.ofBytes? raw = some (.object ms) ∧ UntypedText ms) ∧
      (deserialize raw = .error (.fault .contentTypeNotText) ↔
        ∃ ms, Json.ofBytes? raw = some (.object ms) ∧ UntypedText ms) := by
  rcases passesIff_deserialize raw with ⟨huntyped, hfault⟩ | ⟨hnot, hfails⟩
  · rw [hfault]
    exact ⟨iff_of_false (not_decoded_fault _) (not_not_intro huntyped), iff_of_true rfl huntyped⟩
  · have hdecoded := decoded_of_failsWith fun f h => kind?_of_isMalformed (hfails h)
    refine ⟨iff_of_true hdecoded hnot, iff_of_false ?_ hnot⟩
    intro hfault
    rw [hfault] at hdecoded
    exact not_decoded_fault _ hdecoded

/-- The bytes of an object that has a text as its data and a number as its content type. -/
def numberedType : Bytes :=
  Utf8.ofString "\x7b\"specversion\":\"1.0\",\"id\":\"1\",\"source\":\"s\",\"type\":\"t\","
    ++ Utf8.ofString "\"datacontenttype\":5,\"data\":\"x\"\x7d"

/-- The members of `numberedType`. -/
def numberedTypeMembers : List (Text × Json) :=
  [("specversion", .text "1.0"), ("id", .text "1"), ("source", .text "s"), ("type", .text "t"),
    ("datacontenttype", .int 5), ("data", .text "x")]

theorem numberedType_undecoded :
    deserialize numberedType = .error (.fault .contentTypeNotText) ∧
      ¬Decoded (deserialize numberedType) := by
  have hobject : Json.ofBytes? numberedType = some (.object numberedTypeMembers) := by
    decide +kernel
  have huntyped : UntypedText numberedTypeMembers :=
    ⟨rfl, rfl, ⟨"x", rfl⟩, .int 5, rfl, Json.noConfusion, fun _ => Json.noConfusion⟩
  have hfault := ((passesIff_deserialize numberedType).resolve_right fun h =>
    h.1 ⟨_, hobject, huntyped⟩).2
  rw [hfault]
  exact ⟨rfl, not_decoded_fault _⟩

end JsonEnvelope

/-! ### Avro -/

namespace AvroEnvelope

/-- The problems of the mandatory attributes of a record. -/
def emptyFields (r : Avro.Record) : List Problem :=
  EventDraft.emptyField "id" r.id
    ++ (EventDraft.emptyField "source" r.source ++ EventDraft.emptyField "type" r.type)

/-- A record is an event unless mandatory attributes are empty, which are then its problems. -/
theorem ofRecord_eq_error_iff {r : Avro.Record} {ps : List Problem} :
    ofRecord r = .error ps ↔ ps ≠ [] ∧ emptyFields r = ps := by
  have hdata : Field.bytes (.bytes r.data) = .ok r.data := rfl
  rw [ofRecord, Event.validate_eq_error_iff, EventDraft.problems]
  dsimp only
  rw [EventDraft.problems_nonempty, EventDraft.problems_nonempty, EventDraft.problems_nonempty,
    EventDraft.problems_defaulted (Field.optional_dateTime _),
    EventDraft.problems_defaulted (Field.optional_text _),
    EventDraft.problems_defaulted (Field.optional_text _),
    EventDraft.problems_defaulted (Field.optional_text _), EventDraft.extensionMap_toValue,
    EventDraft.problems_defaulted hdata]
  simp only [Checked.problems_ok, List.append_nil]
  rfl

/-- The fault of bytes is let through: behind the header an index or a number goes past its end, or
a time lies outside the calendar, or there is a record with empty mandatory attributes. -/
inductive Passes (raw : Bytes) : Fault → Prop
  | index {body : Bytes} (hraw : header ++ body = raw)
      (h : Avro.Record.read body = .error .indexOutOfRange) : Passes raw .indexOutOfRange
  | time {body : Bytes} (hraw : header ++ body = raw)
      (h : Avro.Record.read body = .error .timeOutOfRange) : Passes raw .timeOutOfRange
  | empty {body rest : Bytes} {r : Avro.Record} (hraw : header ++ body = raw)
      (h : Avro.Record.read body = .ok (r, rest)) (hempty : emptyFields r ≠ []) :
      Passes raw (.invalid (emptyFields r))

theorem deserialize_of_passes {raw : Bytes} {fault : Fault} (h : Passes raw fault) :
    deserialize raw = .error (.fault fault) := by
  cases h with
  | index hraw h =>
    subst hraw
    exact deserialize_unreadable h
  | time hraw h =>
    subst hraw
    exact deserialize_unreadable h
  | empty hraw h hempty =>
    subst hraw
    exact deserialize_refused h (ofRecord_eq_error_iff.mpr ⟨hempty, rfl⟩)

/-- No other fault is let through. -/
theorem decoded_or_passes (raw : Bytes) :
    Decoded (deserialize raw) ∨ ∃ fault, Passes raw fault := by
  by_cases hheader : header.isPrefixOf raw
  · obtain ⟨body, rfl⟩ := List.isPrefixOf_iff_prefix.mp hheader
    cases hread : Avro.Record.read body with
    | error fault =>
      have hfailure := deserialize_unreadable hread
      have hfault := Avro.Record.raises_read body hread
      simp only [Avro.recordFaults, List.mem_cons, List.not_mem_nil, or_false] at hfault
      rcases hfault with rfl | rfl | rfl | rfl
      · exact .inl (.inr ⟨_, hfailure, rfl⟩)
      · exact .inl (.inr ⟨_, hfailure, rfl⟩)
      · exact .inr ⟨_, .index rfl hread⟩
      · exact .inr ⟨_, .time rfl hread⟩
    | ok p =>
      cases hrecord : ofRecord p.1 with
      | ok e => exact .inl (.inl ⟨e, deserialize_header hread hrecord⟩)
      | error problems =>
        obtain ⟨hempty, rfl⟩ := ofRecord_eq_error_iff.mp hrecord
        exact .inr ⟨_, .empty rfl hread hempty⟩
  · refine .inl (.inr ⟨.encoding .noAvroHeader, ?_, rfl⟩)
    rw [deserialize, if_neg hheader]

/-- Whatever bytes are read as Avro, there is an event or an encoding failure, unless a fault of
what follows the header is let through. -/
theorem deserialize_passes_iff (raw : Bytes) :
    (Decoded (deserialize raw) ↔ ¬∃ fault, Passes raw fault) ∧
      ∀ fault, deserialize raw = .error (.fault fault) ↔ Passes raw fault := by
  constructor
  · constructor
    · rintro hdecoded ⟨fault, hpasses⟩
      rw [deserialize_of_passes hpasses] at hdecoded
      exact not_decoded_fault fault hdecoded
    · exact (decoded_or_passes raw).resolve_right
  · intro fault
    constructor
    · intro hfault
      rcases decoded_or_passes raw with hdecoded | ⟨fault', hpasses⟩
      · rw [hfault] at hdecoded
        exact absurd hdecoded (not_decoded_fault fault)
      · have hsame := deserialize_of_passes hpasses
        rw [hfault] at hsame
        cases hsame
        exact hpasses
    · exact deserialize_of_passes

/-- Bytes that end inside a number. -/
def brokenNumber : Bytes := header ++ [0x80]

/-- Bytes of a record whose time is the last microsecond that a word of 64 bits can hold. -/
def distantTime : Bytes :=
  header ++ [0x02, 0x31, 0x02, 0x73, 0x02, 0x74, 0x00, 0x00, 0x00, 0x02, 0xFE, 0xFF, 0xFF, 0xFF,
    0xFF, 0xFF, 0xFF, 0xFF, 0xFF, 0x01, 0x00, 0x02]

/-- The record in which nothing is given. -/
def emptyRecord : Avro.Record where
  id := ""
  source := ""
  type := ""
  dataContentType := none
  dataSchema := none
  subject := none
  time := none
  extensions := .empty
  data := []

/-- The bytes of `emptyRecord`. -/
def blankBytes : Bytes := header ++ List.replicate 10 0

/-- Three faults of bytes behind the header are let through: none of them is an encoding failure. -/
theorem faults_passed :
    Passes brokenNumber .indexOutOfRange ∧ Passes distantTime .timeOutOfRange ∧
      Passes blankBytes (.invalid [⟨[.name "id"], .stringTooShort⟩,
        ⟨[.name "source"], .stringTooShort⟩, ⟨[.name "type"], .stringTooShort⟩]) ∧
      ¬Decoded (deserialize brokenNumber) ∧ ¬Decoded (deserialize distantTime) ∧
      ¬Decoded (deserialize blankBytes) := by
  have hundecoded : ∀ {raw fault}, Passes raw fault → ¬Decoded (deserialize raw) := by
    intro raw fault h
    rw [deserialize_of_passes h]
    exact not_decoded_fault fault
  have hindex : Passes brokenNumber .indexOutOfRange := .index rfl rfl
  have htime : Passes distantTime .timeOutOfRange := .time rfl rfl
  have hempty : Passes blankBytes (.invalid (emptyFields emptyRecord)) := by
    obtain ⟨time, htime, -, hread⟩ := Avro.Record.reads_write (r := emptyRecord) fun t ht =>
      absurd ht (Option.not_mem_none t)
    obtain rfl : time = none := Option.map_eq_none_iff.mp htime
    have hbytes : emptyRecord.write = .ok (List.replicate 10 0) := by decide +kernel
    have hrecord := hread _ hbytes (by decide) []
    exact .empty rfl hrecord (by simp [emptyFields, EventDraft.emptyField, emptyRecord])
  exact ⟨hindex, htime, hempty, hundecoded hindex, hundecoded htime, hundecoded hempty⟩

end AvroEnvelope

end CloudEnvelope
