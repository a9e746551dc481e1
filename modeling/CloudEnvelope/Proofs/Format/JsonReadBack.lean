import CloudEnvelope.Proofs.Event.Problems
import CloudEnvelope.Proofs.Format.JsonStandard

/-!
# When events in JSON are read back

`JsonEnvelope.deserialize_serialize_iff`: whatever the data of an event is, what is written of the
event is read back exactly when the offset of its time is a whole number of minutes, and otherwise
the time is all that the reader objects to.

The data may denote numbers, which the reader has as they are written (`Json.settled`).  That leaves
the attributes and the extensions alone (`Outlines.settled`), and in the data a text stays a text,
so that the reader finds bytes for it in any case (`exists_data_settled`).
-/

namespace CloudEnvelope

/-! ### Members with their numbers as they are written -/

namespace Json

theorem member?_settledMembers (name : Text) (ms : List (Text × Json)) :
    member? name (settledMembers ms) = (member? name ms).map settled := by
  induction ms with
  | nil => rfl
  | cons m rest ih =>
    obtain ⟨name', j⟩ := m
    rw [settledMembers, member?, member?, ih]
    split <;> rfl

theorem filter_settledMembers (p : Text → Bool) (ms : List (Text × Json)) :
    ((settledMembers ms).filter fun m => p m.1) = settledMembers (ms.filter fun m => p m.1) := by
  rw [settledMembers_eq_map, settledMembers_eq_map, List.filter_map]
  rfl

/-- What a word or a number is read as is no text. -/
theorem spelled_ne_text (cs : List Char) (t : Text) : spelled cs ≠ .text t := by
  intro h
  unfold spelled at h
  cases hatom : atom? cs with
  | none =>
    rw [hatom] at h
    cases h
  | some found =>
    have hread : atom? cs = some (.text t, found.2) := by
      rw [hatom] at h ⊢
      exact congrArg (fun j => some (j, found.2)) h
    exact isAtom_of_atom? hread

/-- Only a text is read back as a text. -/
theorem eq_text_of_settled {j : Json} {t : Text} (h : j.settled = .text t) : j = .text t := by
  cases j with
  | float x => exact absurd h (spelled_ne_text _ t)
  | text t' => exact h
  | _ => cases h

end Json

namespace JsonEnvelope

variable {e : Event} {xs : List (Text × ExtensionValue)} {ms : List (Text × Json)} {raw : Bytes}

/-- Extensions hold no floating-point numbers. -/
theorem settledMembers_extensionEntries (xs : List (Text × ExtensionValue)) :
    Json.settledMembers (written (extensionEntries xs)) = written (extensionEntries xs) := by
  rw [Json.settledMembers_eq_map, written, extensionEntries, List.map_map, List.map_map,
    List.map_map]
  refine List.map_congr_left fun x _ => ?_
  have hvalue : (Member.ofExtension x.2).toJson.settled = (Member.ofExtension x.2).toJson :=
    (restorable_ofExtension x.2).settled_eq
  exact congrArg (Prod.mk x.1) hvalue

/-- The attributes and the extensions are as they were when numbers are read as they are written. -/
theorem Outlines.settled (h : Outlines e xs ms) : Outlines e xs (Json.settledMembers ms) := by
  have htext : ∀ {name : Text} {t : Text}, Json.member? name ms = some (.text t) →
      Json.member? name (Json.settledMembers ms) = some (.text t) := by
    intro name t hmember
    rw [Json.member?_settledMembers, hmember]
    rfl
  have hoptional : ∀ {α : Type} {name : Text} {o : Option α} {f : α → Text},
      Json.member? name ms = o.map (fun a => .text (f a)) →
        Json.member? name (Json.settledMembers ms) = o.map fun a => .text (f a) := by
    intro α name o f hmember
    rw [Json.member?_settledMembers, hmember, Option.map_map]
    rfl
  constructor
  case specversion => exact htext h.specversion
  case id => exact htext h.id
  case source => exact htext h.source
  case type => exact htext h.type
  case time => exact hoptional h.time
  case dataContentType => exact hoptional h.dataContentType
  case dataSchema => exact hoptional h.dataSchema
  case subject => exact hoptional h.subject
  case extensions =>
    have hfilter := Json.filter_settledMembers (fun name => !isMemberName name) ms
    rw [hfilter, h.extensions, settledMembers_extensionEntries]

/-! ### Data -/

/-- The data stands in the member for base64 as such, or else in the other one. -/
theorem dataMember_forms (contentType : Option Text) (data : Bytes) :
    dataMember contentType data
        = (("data_base64" : Text), Json.text (Base64.encodeString data)) ∨
      ∃ j, dataMember contentType data = (("data" : Text), j) := by
  simp only [dataMember]
  split
  · split
    · exact .inl rfl
    · split
      · exact .inr ⟨_, rfl⟩
      · exact .inr ⟨_, rfl⟩
  · exact .inl rfl

/-- The reader has bytes for every value, as long as a text among them has a form in UTF-8. -/
theorem exists_plainData (contentType : Option Text) {j : Json}
    (h : ∀ t, j = .text t → t.LoneFree) :
    ∃ content, plainData ((contentType.map Json.text).getD .null) j = .ok content := by
  obtain ⟨content, hcontent, -⟩ := exists_writtenData j
  cases j with
  | text t =>
    have htext : ∃ content, textData t = .ok content := by
      obtain ⟨bytes, hbytes⟩ := Option.isSome_iff_exists.mp (Text.isSome_utf8?_iff.mpr (h t rfl))
      exact ⟨bytes, by rw [textData, hbytes]⟩
    cases contentType with
    | none => exact htext
    | some mediaType =>
      by_cases hjson : MediaType.isJson (some mediaType)
      · refine ⟨content, ?_⟩
        simp only [Option.map_some, Option.getD_some, plainData, if_pos hjson]
        exact hcontent
      · simp only [Option.map_some, Option.getD_some, plainData, if_neg hjson]
        exact htext
  | _ => exact ⟨content, hcontent⟩

/-- The reader finds bytes for the data of every event that is written. -/
theorem exists_data_settled (h : Describes e xs ms) (hraw : serialize e = .ok raw) :
    ∃ content, data (Json.settledMembers ms) ((e.dataContentType.map Json.text).getD .null)
      = .ok content := by
  rw [data, Json.member?_settledMembers, Json.member?_settledMembers, h.data, h.dataBase64]
  by_cases hempty : e.data = []
  · have hnone : dataEntries e = [] := by
      rw [dataEntries, if_pos (by simpa using hempty)]
    rw [hnone]
    exact ⟨[], rfl⟩
  · rcases dataMember_forms e.dataContentType e.data with hmember | ⟨j, hmember⟩
    · rw [dataEntries, if_neg (by simpa using hempty), hmember]
      show ∃ content,
        (base64Data (.text (Base64.encodeString e.data))).mapError malformed = .ok content
      rw [base64Data_encode]
      exact ⟨e.data, rfl⟩
    · have hlone := loneFree_of_serialize hempty hmember hraw
      rw [dataEntries_of_dataMember hempty hmember]
      show ∃ content, plainData _ j.settled = .ok content
      refine exists_plainData e.dataContentType fun t ht => ?_
      -- Only a text is read back as one, and its code points have been written as they are.
      rw [Json.eq_text_of_settled ht] at hlone
      exact Json.loneFree_of_content (Json.loneFree_writeString_iff.mp hlone)

/-! ### Reading -/

/-- What is read of an event is what becomes of its draft, with some bytes as its data. -/
theorem exists_draft_of_serialize (hversion : e.specversion = Event.currentVersion)
    (h : serialize e = .ok raw) :
    ∃ xs content, ExtensionValue.ofEntries e.extensions.entries = .ok xs ∧
      deserialize raw = (Event.validate (({ e with data := content } : Event).draft
        ((e.time.map fun t => Json.text (Text.ofChars t.rfc3339)).getD .null).toValue
        (xs.map fun x => (x.1, restored x.2)))).mapError fun ps => malformed (.invalid ps) := by
  obtain ⟨xs, hxs, hnames, hraw⟩ := serialize_eq_ok_iff.mp h
  have hdescribes := describes_objectMembers (e := e) hnames
  have hlegible := Json.legible_of_distinctNames (distinctNames_objectMembers hxs hnames)
  obtain ⟨content, hcontent⟩ := exists_data_settled hdescribes h
  refine ⟨xs, content, hxs, ?_⟩
  rw [deserialize_eq_ofJson_settled hlegible hraw]
  exact ofJson_of_outlines hversion hdescribes.toOutlines.settled hcontent

/-- The fault of a time that cannot be read. -/
def unreadableTime : Fault := .invalid [⟨[.name "time"], .datetimeFromDateParsing⟩]

/-- A draft with the form of a time whose offset has seconds is refused for that time only. -/
theorem validate_draft_of_seconds {d : Event} {s : DateTime} {es : List (Text × Value)}
    (h : ¬(s.offset.getD .utc).WholeMinutes) :
    Event.validate (d.draft (.text (Text.ofChars s.rfc3339)) es)
      = .error [⟨[.name "time"], .datetimeFromDateParsing⟩] := by
  have htime : (EventDraft.defaulted "time" (Field.optional Field.time) none
      (some (.text (Text.ofChars s.rfc3339)))).problems
        = [⟨[.name "time"], .datetimeFromDateParsing⟩] := by
    have hread : Field.optional Field.time (.text (Text.ofChars s.rfc3339))
        = .error .datetimeFromDateParsing := by
      show (Field.time (.text (Text.ofChars s.rfc3339))).map some = _
      rw [Field.time, Text.scalars?_ofChars, Field.ofScalars,
        TimeReading.ofChars_rfc3339_unreadable s h]
      rfl
    rw [EventDraft.defaulted, hread]
    rfl
  have hempty : ∀ {name s : String}, s ≠ "" → EventDraft.emptyField name s = [] :=
    fun hne => if_neg hne
  have hoptional := fun (name : Text) (o : Option Text) =>
    EventDraft.problems_defaulted (Field.optional_text o) name none
  refine Event.validate_eq_error_iff.mpr ⟨List.cons_ne_nil _ _, ?_⟩
  simp only [EventDraft.problems, Event.draft, EventDraft.problems_nonempty, hempty d.id_ne,
    hempty d.source_ne, hempty d.type_ne, htime, hoptional, EventDraft.extensionMap_texts]
  rfl

/-- What is written of an event in JSON is read back when the offset of its time is a whole number
of minutes, or when it has no time: all but the data, which may come in another form.  With seconds
in the offset the reader refuses the time and nothing else. -/
theorem deserialize_serialize_iff (hversion : e.specversion = Event.currentVersion)
    (h : EventFormat.json.serialize e = .ok raw) :
    ((∃ d, deserialize raw = .ok d ∧ Event.ReadBack restored { e with data := d.data } d) ↔
        ∀ s ∈ e.time, (s.offset.getD .utc).WholeMinutes) ∧
      (deserialize raw = .error (malformed unreadableTime) ↔
        ∃ s ∈ e.time, ¬(s.offset.getD .utc).WholeMinutes) := by
  obtain ⟨xs, content, hxs, hread⟩ :=
    exists_draft_of_serialize hversion (json_serialize_eq_ok_iff.mp h)
  by_cases htime : ∀ s ∈ e.time, (s.offset.getD .utc).WholeMinutes
  · have hinstant : (e.time.map DateTime.assumeUtc).map DateTime.instant
        = e.time.map DateTime.instant := by
      rw [Option.map_map]
      rfl
    have haware : ∀ s ∈ e.time.map DateTime.assumeUtc, s.offset.isSome := by
      intro s hs
      obtain ⟨s, -, rfl⟩ := Option.map_eq_some_iff.mp hs
      rfl
    obtain ⟨d, hd, hback⟩ := Event.exists_validate_draft (e := { e with data := content })
      hversion hxs (optional_time htime) hinstant haware
    have hok : deserialize raw = .ok d := by
      rw [hread, hd]
      rfl
    have hdata : d.data = content := hback.data
    refine ⟨iff_of_true ⟨d, hok, hdata ▸ hback⟩ htime, iff_of_false ?_ (by simpa using htime)⟩
    rw [hok]
    exact nofun
  · obtain ⟨s, hs, hseconds⟩ : ∃ s ∈ e.time, ¬(s.offset.getD .utc).WholeMinutes := by
      simpa using htime
    have hfault : deserialize raw = .error (malformed unreadableTime) := by
      rw [hread, Option.mem_def.mp hs]
      show (Event.validate (Event.draft _ (.text (Text.ofChars s.rfc3339)) _)).mapError _ = _
      rw [validate_draft_of_seconds hseconds]
      rfl
    refine ⟨iff_of_false ?_ htime, iff_of_true hfault ⟨s, hs, hseconds⟩⟩
    rintro ⟨d, hd, -⟩
    rw [hfault] at hd
    cases hd

end JsonEnvelope

end CloudEnvelope
