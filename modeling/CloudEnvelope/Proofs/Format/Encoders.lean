import CloudEnvelope.Converter
import CloudEnvelope.Proofs.Extension
import CloudEnvelope.Proofs.Format.JsonDocument

/-!
# What encoders object to

The formats and converters of this library fail with encoding issues, and an issue that reports a
taken name belongs to an extension whose name is forbidden; where text is made of extensions, they
may also fail for an integer of too many digits (`EventFormat.ofEncoder_of_serialize`,
`MessageConverter.ofEncoder_of_convert`).  A converter that does not fail gives a message.
-/

namespace CloudEnvelope

/-- The issue reports that the name of an extension is taken. -/
def EncodingIssue.Collides : EncodingIssue → Prop
  | reservedExtension _ => True
  | collidingMember _ => True
  | _ => False

/-- The issue reports a taken name only where one of the entries has a forbidden name. -/
def EncodingIssue.Concerns (issue : EncodingIssue) (es : List (Text × Value)) : Prop :=
  issue.Collides → ∃ x ∈ es, ExtensionValue.isForbidden x.1

/-- What an encoder can object to in extensions: what an issue reports, or the digits of an
integer. -/
inductive Failure.OfEncoder (es : List (Text × Value)) : Failure → Prop
  | encoding {issue : EncodingIssue} (h : issue.Concerns es) : OfEncoder es (.encoding issue)
  | digits (h : ¬ExtensionValue.Spelled es) : OfEncoder es (.fault .tooManyDigits)

variable {e : Event} {es : List (Text × Value)} {issue : EncodingIssue} {failure : Failure}

theorem EncodingIssue.concerns_of_not_collides (h : ¬issue.Collides) : issue.Concerns es :=
  fun hcollides => absurd hcollides h

/-! ### Extensions -/

namespace ExtensionValue

theorem concerns_of_ofValue {x : Text × Value} (hx : x ∈ es)
    (h : ofValue x.1 x.2 = .error issue) : issue.Concerns es := by
  rcases ofValue_eq_error_iff.mp h with ⟨hforbidden, -⟩ | ⟨-, -, rfl⟩
  · exact fun _ => ⟨x, hx, hforbidden⟩
  · exact EncodingIssue.concerns_of_not_collides id

/-- An entry that cannot be written has an integer of too many digits. -/
theorem not_spelled_of_mem {e : Text × Value} {x : ExtensionValue} (he : e ∈ es)
    (h : ofValue e.1 e.2 = .ok x) (hx : x.isSpelled = false) : ¬Spelled es := by
  intro hspelled
  rw [(isSpelled_iff_of_ofValue? (ofValue_eq_ok_iff.mp h).2).mpr (hspelled e he)] at hx
  cases hx

theorem concerns_of_ofEntries (h : ofEntries es = .error issue) : issue.Concerns es := by
  obtain ⟨x, hx, h⟩ := exists_of_ofEntries_eq_error h
  exact concerns_of_ofValue hx h

end ExtensionValue

/-! ### Formats -/

/-- The members that an event has in JSON are those whose names are forbidden. -/
theorem JsonEnvelope.isMemberName_eq (name : Text) :
    isMemberName name = ExtensionValue.isForbidden name := by
  have hsame : ∀ m, m ∈ memberNames ↔ m ∈ Event.forbiddenNames := fun m =>
    (show memberNames.Perm Event.forbiddenNames by decide).mem_iff
  rw [Bool.eq_iff_iff, isMemberName, ExtensionValue.isForbidden, List.any_eq_true, List.any_eq_true]
  simp only [hsame]

theorem JsonEnvelope.concerns_of_addExtensions {doc : Document}
    (h : addExtensions doc es = .error issue) : issue.Concerns es := by
  induction es generalizing doc with
  | nil => cases h
  | cons x rest ih =>
    rw [addExtensions] at h
    split at h
    · -- The check of member names comes before that of forbidden ones, and is the same.
      rename_i hmember
      rw [isMemberName_eq] at hmember
      exact fun _ => ⟨x, List.mem_cons_self, hmember⟩
    · split at h
      · rename_i hvalue
        cases h
        exact ExtensionValue.concerns_of_ofValue List.mem_cons_self hvalue
      · intro hcollides
        obtain ⟨x', hx', hforbidden⟩ := ih h hcollides
        exact ⟨x', List.mem_cons_of_mem _ hx', hforbidden⟩

theorem JsonEnvelope.concerns_of_serialize (h : serialize e = .error issue) :
    issue.Concerns e.extensions.entries := by
  rcases Except.bind_eq_error_iff.mp h with h | ⟨doc, -, h⟩
  · rcases Except.bind_eq_error_iff.mp h with h | ⟨doc, -, h⟩
    · exact concerns_of_addExtensions h
    · split at h <;> cases h
  · split at h
    · cases h
    · cases h
      exact EncodingIssue.concerns_of_not_collides id

theorem XmlEnvelope.ofEncoder_of_extensionLeaf {x : Text × Value} (hx : x ∈ es)
    (h : extensionLeaf x.1 x.2 = .error failure) : failure.OfEncoder es := by
  rw [extensionLeaf] at h
  split at h
  · split at h
    · rename_i hvalue
      cases h
      exact .encoding (ExtensionValue.concerns_of_ofValue hx hvalue)
    · rename_i hvalue
      dsimp only at h
      split at h
      · cases h
      · rename_i hdigits
        cases h
        exact .digits (ExtensionValue.not_spelled_of_mem hx hvalue (Bool.eq_false_iff.mpr hdigits))
  · cases h
    exact .encoding (EncodingIssue.concerns_of_not_collides id)

theorem XmlEnvelope.ofEncoder_of_serialize (h : serialize e = .error failure) :
    failure.OfEncoder e.extensions.entries := by
  rcases Except.bind_eq_error_iff.mp h with h | ⟨root, -, h⟩
  · rcases Except.bind_eq_error_iff.mp h with h | ⟨_, -, ⟨⟩⟩
    obtain ⟨x, hx, h⟩ := Except.exists_of_mapM_eq_error h
    exact ofEncoder_of_extensionLeaf hx h
  · split at h
    · cases h
    · cases h
      exact .encoding (EncodingIssue.concerns_of_not_collides id)

theorem AvroEnvelope.concerns_of_serialize (h : serialize e = .error issue) :
    issue.Concerns e.extensions.entries := by
  rcases Except.bind_eq_error_iff.mp h with h | ⟨r, -, h⟩
  · rcases Except.bind_eq_error_iff.mp h with h | ⟨_, -, ⟨⟩⟩
    exact ExtensionValue.concerns_of_ofEntries (Except.map_eq_error_iff.mp h)
  · split at h
    · cases h
    · cases h
      exact EncodingIssue.concerns_of_not_collides id

namespace EventFormat

/-- The formats of this library. -/
def standard : List EventFormat := [json, xml, avro]

theorem encoding_eq_error_iff {α : Type} {r : Except EncodingIssue α} :
    encoding r = .error failure ↔ ∃ issue, r = .error issue ∧ .encoding issue = failure :=
  Except.mapError_eq_error_iff

/-- A format of this library fails with an encoding issue, which reports a taken name only where an
extension has a forbidden one, or for an integer of too many digits. -/
theorem ofEncoder_of_serialize {f : EventFormat} (hf : f ∈ standard)
    (h : f.serialize e = .error failure) : failure.OfEncoder e.extensions.entries := by
  simp only [standard, List.mem_cons, List.not_mem_nil, or_false] at hf
  rcases hf with rfl | rfl | rfl
  · obtain ⟨issue, hissue, rfl⟩ := encoding_eq_error_iff.mp h
    exact .encoding (JsonEnvelope.concerns_of_serialize hissue)
  · exact XmlEnvelope.ofEncoder_of_serialize h
  · obtain ⟨issue, hissue, rfl⟩ := encoding_eq_error_iff.mp h
    exact .encoding (AvroEnvelope.concerns_of_serialize hissue)

end EventFormat

/-! ### Converters -/

namespace MessageConverter

/-- The converters of this library: binary mode with any start of header names, and structured mode
in a format of this library. -/
inductive Standard : MessageConverter → Prop
  | binary (start : Text) : Standard (binary start)
  | structured {f : EventFormat} (hf : f ∈ EventFormat.standard) : Standard (structured f)

variable {c : MessageConverter} {headers : Headers}

/-- The headers of extensions are refused for one of the extensions. -/
theorem exists_of_extensionHeaders_eq_error {start : Text}
    (h : extensionHeaders start es = .error failure) :
    ∃ x ∈ es, ExtensionValue.textOf x.1 x.2 = .error failure := by
  induction es with
  | nil => cases h
  | cons x rest ih =>
    rw [extensionHeaders] at h
    split at h
    · rename_i htext
      cases h
      exact ⟨x, List.mem_cons_self, htext⟩
    · obtain ⟨x', hx', htext⟩ := ih (Except.map_eq_error_iff.mp h)
      exact ⟨x', List.mem_cons_of_mem _ hx', htext⟩

theorem ofEncoder_of_convert (hc : c.Standard) (h : c.convert e headers = .error failure) :
    failure.OfEncoder e.extensions.entries := by
  cases hc with
  | binary start =>
    rcases Except.bind_eq_error_iff.mp (Except.map_eq_error_iff.mp h) with h | ⟨_, -, ⟨⟩⟩
    obtain ⟨x, hx, htext⟩ := exists_of_extensionHeaders_eq_error h
    rcases ExtensionValue.textOf_eq_error_iff.mp htext with
      ⟨issue, hissue, rfl⟩ | ⟨y, hy, hdigits, rfl⟩
    · exact .encoding (ExtensionValue.concerns_of_ofValue hx hissue)
    · exact .digits (ExtensionValue.not_spelled_of_mem hx hy hdigits)
  | structured hf =>
    rcases Except.bind_eq_error_iff.mp (Except.map_eq_error_iff.mp h) with h | ⟨_, -, ⟨⟩⟩
    exact EventFormat.ofEncoder_of_serialize hf h

/-- What does not fail gives a message. -/
theorem isSome_of_convert (hc : c.Standard) {r : Option Message}
    (h : c.convert e headers = .ok r) : r.isSome := by
  cases hc with
  | binary start =>
    obtain ⟨_, -, rfl⟩ := Except.map_eq_ok_iff.mp h
    rfl
  | structured hf =>
    obtain ⟨_, -, rfl⟩ := Except.map_eq_ok_iff.mp h
    rfl

end MessageConverter

end CloudEnvelope
