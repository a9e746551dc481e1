import CloudEnvelope.Proofs.Format.AvroEnvelope
import CloudEnvelope.Proofs.Format.JsonData
import CloudEnvelope.Proofs.Json.Unquoted

/-!
# Events in standard JSON

What is written for an event in JSON is the text of an object whose names are distinct at every
level.  It is standard JSON exactly when the data, taken for JSON, holds no infinity and no number
that is none (`JsonEnvelope.serialize_grammar`): what is read of such a number is written by a word
that the standard does not have.
-/

namespace CloudEnvelope

/-- No number of the data is past all finite ones or none at all, if the data is taken for JSON. -/
def Event.FiniteData (e : Event) : Prop :=
  MediaType.isJson e.dataContentType → ∀ v, Json.ofBytes? e.data = some v →
    ∀ x ∈ v.floats, Json.IsFinite x

namespace JsonEnvelope

open Json (IsText)

variable {e : Event} {xs : List (Text × ExtensionValue)}

/-! ### The value of an event -/

/-- A property of texts, words and integers belongs to every member of an event's object, if it
belongs to the value that the data denotes. -/
theorem forall_mem_objectMembers {P : Json → Prop} (htext : ∀ t, P (.text t))
    (hbool : ∀ b, P (.bool b)) (hint : ∀ n, P (.int n))
    (hdata : MediaType.isJson e.dataContentType → ∀ v, Json.ofBytes? e.data = some v → P v) :
    ∀ m ∈ objectMembers e xs, P m.2 := by
  intro m hm
  rw [objectMembers, List.mem_append, List.mem_append] at hm
  rcases hm with (hm | hm) | hm
  · obtain ⟨m', hm', rfl⟩ := List.mem_map.mp hm
    obtain ⟨⟨name, t | t⟩, -, rfl⟩ := List.mem_map.mp hm' <;> exact htext _
  · obtain ⟨m', hm', rfl⟩ := List.mem_map.mp hm
    obtain ⟨⟨name, b | n | t | content⟩, -, rfl⟩ := List.mem_map.mp hm'
    · exact hbool b
    · exact hint n
    · exact htext t
    · exact htext _
  · obtain ⟨m', hm', rfl⟩ := List.mem_map.mp hm
    rw [dataEntries] at hm'
    split at hm'
    · cases hm'
    · rw [List.mem_singleton.mp hm']
      rcases dataMember_cases e.dataContentType e.data with ⟨hjson, hv⟩ | ⟨-, cs, hcs⟩
      · exact hdata hjson _ hv
      · show P (dataMember e.dataContentType e.data).2
        rw [hcs]
        exact htext _

/-- The names of an event's object are distinct at every level. -/
theorem distinctNames_objectMembers (hxs : ExtensionValue.ofEntries e.extensions.entries = .ok xs)
    (hnames : ∀ x ∈ xs, isMemberName x.1 = false) :
    (Json.object (objectMembers e xs)).distinctNames := by
  refine ⟨nodup_objectMembers hxs hnames, Json.membersDistinct_iff.mpr ?_⟩
  refine forall_mem_objectMembers (fun _ => trivial) (fun _ => trivial) (fun _ => trivial) ?_
  intro _ v hv
  obtain ⟨cs, -, hread⟩ := Json.ofBytes?_eq_some_iff.mp hv
  exact Json.distinctNames_of_read? hread

/-- The numbers of an event's object are finite when those of its data are. -/
theorem isFinite_objectMembers_iff :
    (∀ x ∈ Json.membersFloats (objectMembers e xs), Json.IsFinite x) ↔ e.FiniteData := by
  rw [Json.membersFloats_eq_flatMap]
  constructor
  · intro h hjson v hv x hx
    refine h x (List.mem_flatMap.mpr ⟨(("data" : Text), v), ?_, hx⟩)
    have hentries := dataEntries_of_dataMember (ne_nil_of_value hv) (dataMember_of_value hjson hv)
    rw [objectMembers, hentries]
    exact List.mem_append_right _ List.mem_cons_self
  · intro h x hx
    obtain ⟨m, hm, hx⟩ := List.mem_flatMap.mp hx
    have hnone : ∀ x : Binary64, x ∈ [] → Json.IsFinite x := fun _ hmem =>
      absurd hmem List.not_mem_nil
    exact forall_mem_objectMembers (P := fun j => ∀ x ∈ j.floats, Json.IsFinite x)
      (fun _ => hnone) (fun _ => hnone) (fun _ => hnone) h m hm x hx

/-! ### Main statement -/

/-- What is written for an event is what is written for its object. -/
theorem exists_object_of_serialize {raw : Bytes} (h : EventFormat.json.serialize e = .ok raw) :
    ∃ xs, Utf8.decode? raw
        = some ((Json.object (objectMembers e xs)).write .unicode).chars ∧
      (Json.object (objectMembers e xs)).distinctNames ∧
        ((Json.object (objectMembers e xs)).write .unicode).LoneFree := by
  obtain ⟨xs, hxs, hnames, hraw⟩ := serialize_eq_ok_iff.mp (json_serialize_eq_ok_iff.mp h)
  obtain ⟨cs, hcs, rfl⟩ := Text.utf8?_eq_some_iff.mp hraw
  refine ⟨xs, ?_, distinctNames_objectMembers hxs hnames, ?_⟩
  · rw [Utf8.decode?_encode, hcs, Text.chars_ofChars]
  · rw [hcs]
    exact Text.loneFree_ofChars cs

/-- What is written for an event in JSON is the text of an object whose names are distinct at every
level, words for numbers that are not finite granted.  It is standard JSON exactly when there are no
such numbers in the data that is taken for JSON. -/
theorem serialize_grammar {raw : Bytes} (h : EventFormat.json.serialize e = .ok raw) :
    ∃ cs, Utf8.decode? raw = some cs ∧ IsText .lenient .object cs ∧
      (IsText .strict .object cs ↔ e.FiniteData) ∧ (IsText .standard .value cs ↔ e.FiniteData) := by
  obtain ⟨xs, hcs, hnames, hlone⟩ := exists_object_of_serialize h
  refine ⟨_, hcs, ?_, ?_, ?_⟩
  · exact (Json.spells_write_object (g := .lenient) (fun n => .inl (Json.isNumeral_ofInt n))
      (fun _ h => h) (fun x _ => Json.numeral_lenient x) hnames hlone).isText
  · rw [Json.isText_write_object_iff hnames hlone, isFinite_objectMembers_iff]
  · rw [Json.isText_write_iff hnames hlone]
    exact isFinite_objectMembers_iff

/-- An event whose data is the word for what is not a number. -/
def notANumber : Event where
  specversion := Event.currentVersion
  id := "1"
  source := "urn:x"
  type := "t"
  time := none
  dataContentType := none
  dataSchema := none
  subject := none
  data := Utf8.ofString "NaN"
  extensions := .empty
  id_ne := AvroEnvelope.eveOfEpoch.id_ne
  source_ne := AvroEnvelope.eveOfEpoch.source_ne
  type_ne := AvroEnvelope.eveOfEpoch.type_ne

/-- An event whose data holds numbers with a fraction and an exponent. -/
def fractions : Event := { notANumber with data := Utf8.ofString "[1.50, \x7b\"a\": -2e-7\x7d]" }

theorem serialize_grammar_fractions : fractions.FiniteData ∧
    ∃ raw, EventFormat.json.serialize fractions = .ok raw ∧
      ∃ cs, Utf8.decode? raw = some cs ∧ IsText .strict .object cs := by
  have hfinite : fractions.FiniteData := by
    intro _ v hv
    have hall : ∀ x ∈ ((Json.ofBytes? fractions.data).map Json.floats).getD [],
        Json.IsFinite x := by
      decide +kernel
    rwa [hv] at hall
  obtain ⟨raw, hraw⟩ : ∃ raw, EventFormat.json.serialize fractions = .ok raw := by
    rw [← Except.isSome_toOption_iff]
    decide +kernel
  obtain ⟨cs, hcs, -, hstrict, -⟩ := serialize_grammar hraw
  exact ⟨hfinite, raw, hraw, cs, hcs, hstrict.mpr hfinite⟩

/-- The word for what is not a number is written as it was read, which is no standard JSON. -/
theorem notANumber_nonstandard : Json.ofBytes? notANumber.data = some (.float .nan) ∧
    ∃ raw cs, EventFormat.json.serialize notANumber = .ok raw ∧ Utf8.decode? raw = some cs ∧
      ¬IsText .standard .value cs := by
  have hvalue : Json.ofBytes? notANumber.data = some (.float .nan) := rfl
  obtain ⟨raw, hraw⟩ : ∃ raw, EventFormat.json.serialize notANumber = .ok raw := by
    rw [← Except.isSome_toOption_iff]
    decide +kernel
  obtain ⟨xs, hcs, hnames, hlone⟩ := exists_object_of_serialize hraw
  refine ⟨hvalue, raw, _, hraw, hcs, ?_⟩
  rw [Json.isText_write_iff hnames hlone]
  intro hfinite
  exact isFinite_objectMembers_iff.mp hfinite rfl _ hvalue .nan List.mem_cons_self

end JsonEnvelope

end CloudEnvelope
