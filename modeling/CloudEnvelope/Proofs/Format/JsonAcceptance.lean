import CloudEnvelope.Proofs.Format.Encoders
import CloudEnvelope.Proofs.Format.JsonStandard
import CloudEnvelope.Proofs.Json.Texts

/-!
# Which events JSON has a form for

`JsonEnvelope.exists_json_serialize_iff`: an event is written in JSON exactly when its extensions
are accepted, no text in its attributes and extensions holds a lone surrogate
(`JsonEnvelope.Accepts`), and no text of the value that its data denotes does so, where the data is
taken for JSON (`Event.EncodableData`).

Bytes that are no text and texts that are no JSON always have a member to stand in.  A JSON text
that escapes a lone surrogate has none: it is read as the value that it denotes, and the value is
written without the escape.
-/

namespace CloudEnvelope

/-- The extension value holds no lone surrogate. -/
def ExtensionValue.LoneFree : ExtensionValue → Prop
  | .text t => t.LoneFree
  | _ => True

/-- The value of an attribute holds no lone surrogate. -/
def AttributeValue.LoneFree : AttributeValue → Prop
  | .text t => t.LoneFree
  | .time _ => True

/-- No text of the value that the data denotes holds a lone surrogate, if the data is taken for
JSON. -/
def Event.EncodableData (e : Event) : Prop :=
  MediaType.isJson e.dataContentType → ∀ v, Json.ofBytes? e.data = some v →
    ∀ t ∈ v.texts, t.LoneFree

namespace JsonEnvelope

/-- JSON has a form for the attributes and the extensions of an event: they hold no lone surrogates,
and every extension is accepted. -/
structure Accepts (e : Event) : Prop where
  attributes : ∀ a ∈ e.attributes, a.2.LoneFree
  extensions : ∀ x ∈ e.extensions.entries, x.1.LoneFree ∧
    ∃ v, ExtensionValue.ofValue x.1 x.2 = .ok v ∧ v.LoneFree

variable {e : Event} {xs : List (Text × ExtensionValue)}

/-! ### Members -/

/-- The name of a member and every text in its value are free of lone surrogates. -/
def Encodable (m : Text × Member) : Prop :=
  m.1.LoneFree ∧ ∀ t ∈ m.2.toJson.texts, t.LoneFree

theorem forall_texts_ofAttribute_iff (a : AttributeValue) :
    (∀ t ∈ (Member.ofAttribute a).toJson.texts, t.LoneFree) ↔ a.LoneFree := by
  cases a with
  | text t => exact List.forall_mem_singleton
  | time t => exact List.forall_mem_singleton.trans (iff_of_true (Text.loneFree_ofChars _) trivial)

theorem forall_texts_ofExtension_iff (x : ExtensionValue) :
    (∀ t ∈ (Member.ofExtension x).toJson.texts, t.LoneFree) ↔ x.LoneFree := by
  cases x with
  | bool b => exact iff_of_true (fun _ hmem => absurd hmem List.not_mem_nil) trivial
  | int n => exact iff_of_true (fun _ hmem => absurd hmem List.not_mem_nil) trivial
  | text t => exact List.forall_mem_singleton
  | bytes content =>
    exact List.forall_mem_singleton.trans (iff_of_true (Text.loneFree_ofString _) trivial)

theorem encodable_attributeEntries_iff :
    (∀ m ∈ attributeEntries e, Encodable m) ↔ ∀ a ∈ e.attributes, a.2.LoneFree := by
  rw [attributeEntries, List.forall_mem_map]
  refine forall₂_congr fun a _ => ?_
  rw [Encodable, forall_texts_ofAttribute_iff]
  exact and_iff_right (Text.loneFree_ofString a.1)

theorem encodable_extensionEntries_iff :
    (∀ m ∈ extensionEntries xs, Encodable m) ↔ ∀ x ∈ xs, x.1.LoneFree ∧ x.2.LoneFree := by
  rw [extensionEntries, List.forall_mem_map]
  refine forall₂_congr fun x _ => ?_
  rw [Encodable, forall_texts_ofExtension_iff]

/-- The member of the data has a form unless it is a value with a lone surrogate. -/
theorem encodable_dataEntries_iff :
    (∀ m ∈ dataEntries e, Encodable m) ↔ e.EncodableData := by
  rw [dataEntries]
  split
  · -- Empty data denotes no value.
    rename_i hempty
    refine iff_of_true (fun _ hmem => absurd hmem List.not_mem_nil) fun _ v hv => ?_
    exact absurd (List.isEmpty_iff.mp hempty) (ne_nil_of_value hv)
  · rw [List.forall_mem_singleton, Encodable]
    obtain ⟨s, -, hname⟩ := dataMember_name e.dataContentType e.data
    rw [hname, and_iff_right (Text.loneFree_ofString s)]
    show (∀ t ∈ (dataMember e.dataContentType e.data).2.texts, t.LoneFree) ↔ _
    rcases dataMember_cases e.dataContentType e.data with ⟨hjson, hv⟩ | ⟨hnone, cs, hcs⟩
    · constructor
      · intro h _ v hv'
        obtain rfl := Option.some.inj (hv.symm.trans hv')
        exact h
      · intro h
        exact h hjson _ hv
    · rw [hcs]
      refine iff_of_true (List.forall_mem_singleton.mpr (Text.loneFree_ofChars cs)) ?_
      intro hjson v hv
      rw [hnone hjson] at hv
      cases hv

/-! ### Objects -/

theorem loneFree_written_iff {entries : List (Text × Member)} :
    (∀ m ∈ written entries,
      (Json.content .unicode m.1).LoneFree ∧ (Json.write .unicode m.2).LoneFree) ↔
        ∀ m ∈ entries, Encodable m := by
  rw [written, List.forall_mem_map]
  refine forall₂_congr fun m _ => ?_
  rw [Json.loneFree_content_unicode_iff, Json.loneFree_write_unicode_iff, Encodable]

/-- The object of an event has a form in UTF-8 when its attributes, its extensions and its data
do. -/
theorem loneFree_objectMembers_iff :
    ((Json.object (objectMembers e xs)).write .unicode).LoneFree ↔
      ((∀ a ∈ e.attributes, a.2.LoneFree) ∧ ∀ x ∈ xs, x.1.LoneFree ∧ x.2.LoneFree) ∧
        e.EncodableData := by
  rw [Json.loneFree_write_object_iff, objectMembers, List.forall_mem_append,
    List.forall_mem_append, loneFree_written_iff, loneFree_written_iff, loneFree_written_iff,
    encodable_attributeEntries_iff, encodable_extensionEntries_iff, encodable_dataEntries_iff]

/-- Extensions that are accepted have names of their own. -/
theorem isMemberName_of_ofEntries (hxs : ExtensionValue.ofEntries e.extensions.entries = .ok xs) :
    ∀ x ∈ xs, isMemberName x.1 = false := by
  intro x hx
  rw [isMemberName_eq]
  exact Bool.eq_false_iff.mpr (ExtensionValue.not_isForbidden_of_ofEntries hxs x hx)

/-- An event with accepted extensions is written, or else what would be written has no form in
UTF-8. -/
theorem serialize_cases (hxs : ExtensionValue.ofEntries e.extensions.entries = .ok xs) :
    (Accepts e ∧ e.EncodableData) ∧ (∃ raw, serialize e = .ok raw) ∨
      ¬(Accepts e ∧ e.EncodableData) ∧ serialize e = .error .unencodable := by
  have hiff : ((Json.object (objectMembers e xs)).write .unicode).LoneFree ↔
      Accepts e ∧ e.EncodableData := by
    rw [loneFree_objectMembers_iff, ExtensionValue.forall_mem_iff_of_ofEntries hxs]
    exact and_congr_left fun _ => ⟨fun h => ⟨h.1, h.2⟩, fun h => ⟨h.attributes, h.extensions⟩⟩
  rw [serialize_of_ofEntries hxs (isMemberName_of_ofEntries hxs), ← hiff, ← Text.isSome_utf8?_iff]
  cases ((Json.object (objectMembers e xs)).write .unicode).utf8? with
  | none => exact .inr ⟨nofun, rfl⟩
  | some raw => exact .inl ⟨rfl, raw, rfl⟩

theorem Accepts.exists_ofEntries (h : Accepts e) :
    ∃ xs, ExtensionValue.ofEntries e.extensions.entries = .ok xs :=
  ExtensionValue.exists_ofEntries_iff.mpr fun x hx => (h.extensions x hx).2.imp fun _ hv => hv.1

/-- An extension that is not accepted is refused for its name or its type. -/
theorem ofValue_of_addExtensions_unencodable {doc : Document} {es : List (Text × Value)}
    (h : addExtensions doc es = .error .unencodable) :
    ∀ x ∈ es, ∃ v, ExtensionValue.ofValue x.1 x.2 = .ok v := by
  induction es generalizing doc with
  | nil => cases h
  | cons x rest ih =>
    rw [addExtensions] at h
    split at h
    · cases h
    · split at h
      · rename_i hvalue
        cases h
        rcases ExtensionValue.ofValue_eq_error_iff.mp hvalue with ⟨-, ⟨⟩⟩ | ⟨-, -, ⟨⟩⟩
      · rename_i v hvalue
        exact List.forall_mem_cons.mpr ⟨⟨v, hvalue⟩, ih h⟩

theorem exists_ofEntries_of_unencodable (h : serialize e = .error .unencodable) :
    ∃ xs, ExtensionValue.ofEntries e.extensions.entries = .ok xs := by
  rcases Except.bind_eq_error_iff.mp h with h | ⟨doc, hdoc, -⟩
  · rcases Except.bind_eq_error_iff.mp h with h | ⟨doc, -, h⟩
    · exact ExtensionValue.exists_ofEntries_iff.mpr (ofValue_of_addExtensions_unencodable h)
    · split at h <;> cases h
  · obtain ⟨xs, hxs, -⟩ := entries_of_document hdoc
    exact ⟨xs, hxs⟩

theorem json_serialize_eq_error_iff {issue : EncodingIssue} :
    EventFormat.json.serialize e = .error (.encoding issue) ↔ serialize e = .error issue := by
  refine EventFormat.encoding_eq_error_iff.trans ⟨?_, fun h => ⟨issue, h, rfl⟩⟩
  rintro ⟨_, h, ⟨⟩⟩
  exact h

/-! ### Main statement -/

/-- JSON takes an event exactly when it has a form for its attributes, its extensions and its data.
Where the extensions are accepted, nothing but a lone surrogate stands in the way. -/
theorem exists_json_serialize_iff (e : Event) :
    ((∃ raw, EventFormat.json.serialize e = .ok raw) ↔ Accepts e ∧ e.EncodableData) ∧
      (EventFormat.json.serialize e = .error (.encoding .unencodable) ↔
        (∀ x ∈ e.extensions.entries, ∃ v, ExtensionValue.ofValue x.1 x.2 = .ok v) ∧
          ¬(Accepts e ∧ e.EncodableData)) := by
  simp only [json_serialize_eq_ok_iff, json_serialize_eq_error_iff]
  rw [← ExtensionValue.exists_ofEntries_iff]
  constructor
  · constructor
    · rintro ⟨raw, h⟩
      obtain ⟨xs, hxs, -⟩ := serialize_eq_ok_iff.mp h
      rcases serialize_cases hxs with ⟨hencodable, -⟩ | ⟨-, herror⟩
      · exact hencodable
      · cases h.symm.trans herror
    · intro hencodable
      obtain ⟨xs, hxs⟩ := hencodable.1.exists_ofEntries
      exact ((serialize_cases hxs).resolve_right fun h => h.1 hencodable).2
  · constructor
    · intro h
      obtain ⟨xs, hxs⟩ := exists_ofEntries_of_unencodable h
      rcases serialize_cases hxs with ⟨-, raw, hraw⟩ | ⟨hnot, -⟩
      · cases h.symm.trans hraw
      · exact ⟨⟨xs, hxs⟩, hnot⟩
    · rintro ⟨⟨xs, hxs⟩, hnot⟩
      exact ((serialize_cases hxs).resolve_left fun h => hnot h.1).2

/-- An event whose data escapes half of a surrogate pair, in the string of an array. -/
def halvedEscape : Event := { notANumber with data := Utf8.ofString "[\"\\ud800\"]" }

/-- An escape in the data keeps an event from being written in JSON that holds no lone surrogate
anywhere. -/
theorem halvedEscape_refused :
    Accepts halvedEscape ∧
      Json.ofBytes? halvedEscape.data = some (.array [.text [.firstLone]]) ∧
      EventFormat.json.serialize halvedEscape = .error (.encoding .unencodable) := by
  have hvalue : Json.ofBytes? halvedEscape.data = some (.array [.text [.firstLone]]) := by
    decide +kernel
  have haccepts : Accepts halvedEscape := by
    refine ⟨?_, fun _ hx => absurd hx List.not_mem_nil⟩
    refine List.forall_mem_cons.mpr ⟨Text.loneFree_ofString _, ?_⟩
    refine List.forall_mem_cons.mpr ⟨Text.loneFree_ofString _, ?_⟩
    refine List.forall_mem_cons.mpr ⟨Text.loneFree_ofString _, ?_⟩
    exact List.forall_mem_singleton.mpr (Text.loneFree_ofString _)
  have hlone : ¬Text.LoneFree [.firstLone] := fun h => h _ List.mem_cons_self
  have hnot : ¬(Accepts halvedEscape ∧ halvedEscape.EncodableData) := fun h =>
    hlone (h.2 rfl _ hvalue _ List.mem_cons_self)
  obtain ⟨xs, hxs⟩ := haccepts.exists_ofEntries
  have hrefused := ((serialize_cases hxs).resolve_left fun h => hnot h.1).2
  exact ⟨haccepts, hvalue, json_serialize_eq_error_iff.mpr hrefused⟩

end JsonEnvelope

end CloudEnvelope
