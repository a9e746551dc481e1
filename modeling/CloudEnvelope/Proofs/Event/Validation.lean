import CloudEnvelope.Event.Validation
import CloudEnvelope.Extension
import CloudEnvelope.Proofs.Except
import CloudEnvelope.Proofs.OrderedMap
import CloudEnvelope.Proofs.Text.Scalar
import Mathlib.Tactic.Common

/-!
# What validation makes of a draft

`Event.validate_eq_ok_iff`: a draft becomes an event exactly when each of its fields is read as that
of the event (`EventDraft.Gives`).  The lemmas on fields say what is read from the values that
formats put into drafts.
-/

namespace CloudEnvelope

/-! ### Reading fields -/

namespace Field

theorem nonempty_text {s : String} (h : s ≠ "") :
    nonempty (.text s) = .ok ⟨s, h⟩ := by
  simp only [nonempty, text, Text.toString?_ofString]
  exact dif_pos h

/-- An optional text is read back from its value. -/
theorem optional_text (t : Option Text) :
    optional text ((t.map Value.text).getD .null) = .ok t := by
  cases t <;> rfl

/-- An optional time is read back from its value. -/
theorem optional_dateTime (t : Option DateTime) :
    optional time ((t.map Value.dateTime).getD .null) = .ok t := by
  cases t <;> rfl

/-- A string is read as it is, if at all. -/
theorem eq_of_nonempty_text {s : String} {x : { s : String // s ≠ "" }}
    (h : nonempty (.text s) = .ok x) : x.val = s := by
  by_cases hs : s = ""
  · subst hs
    cases h
  · rw [nonempty_text hs] at h
    cases h
    rfl

end Field

/-! ### Collecting results -/

namespace Checked

variable {α β : Type}

theorem at'_eq_ok_iff {location : List Step} {x : Except ProblemKind α} {a : α} :
    at' location x = .ok a ↔ x = .ok a := by
  cases x <;> simp [at']

theorem both_eq_ok_iff {a : Checked α} {b : Checked β} {p : α × β} :
    both a b = .ok p ↔ a = .ok p.1 ∧ b = .ok p.2 := by
  obtain ⟨x, y⟩ := p
  cases a <;> cases b <;> simp [both]

theorem all_map_ok (xs : List α) : all (xs.map Except.ok) = .ok xs := by
  induction xs with
  | nil => rfl
  | cons x xs ih => simp only [List.map_cons, all, ih, both]

end Checked

namespace EventDraft

/-- A field that is given has what is read of it. -/
theorem eq_of_defaulted {α : Type} {name : Text} {read : Value → Except ProblemKind α}
    {default a b : α} {v : Value} (h : defaulted name read default (some v) = .ok b)
    (hread : read v = .ok a) : b = a :=
  Except.ok.inj ((Checked.at'_eq_ok_iff.mp h).symm.trans hread)

/-- Entries under texts are the entries of a map. -/
theorem extensionMap_texts (es : List (Text × Value)) :
    extensionMap (es.map fun e => (.text e.1, e.2)) = .ok (.ofList es) := by
  have hread : (es.map fun e => ((.text e.1, e.2) : Value × Value)).map extension
      = es.map Except.ok := by
    rw [List.map_map]
    rfl
  rw [extensionMap, hread, Checked.all_map_ok]
  rfl

/-- The extension values of a map are its values. -/
theorem extensionMap_toValue (m : OrderedMap Text ExtensionValue) :
    extensionMap (m.entries.map fun x => (.text x.1, x.2.toValue))
      = .ok (m.mapValues fun _ x => x.toValue) := by
  have hentries : (m.entries.map fun x => ((.text x.1, x.2.toValue) : Value × Value))
      = (m.mapValues fun _ x => x.toValue).entries.map fun e => (.text e.1, e.2) := by
    rw [OrderedMap.mapValues, List.map_map]
    rfl
  rw [hentries, extensionMap_texts, OrderedMap.ofList_entries]

/-- Every field of an event is what is read from a draft. -/
structure Gives (d : EventDraft) (e : Event) : Prop where
  specversion : defaulted "specversion" Field.text (Text.ofString Event.currentVersion)
    d.specversion = .ok e.specversion
  id : mandatory "id" Field.nonempty d.id = .ok ⟨e.id, e.id_ne⟩
  source : mandatory "source" Field.nonempty d.source = .ok ⟨e.source, e.source_ne⟩
  type : mandatory "type" Field.nonempty d.type = .ok ⟨e.type, e.type_ne⟩
  time : defaulted "time" (Field.optional Field.time) none d.time = .ok e.time
  dataContentType : defaulted "data_content_type" (Field.optional Field.text) none
    d.dataContentType = .ok e.dataContentType
  dataSchema : defaulted "data_schema" (Field.optional Field.text) none d.dataSchema
    = .ok e.dataSchema
  subject : defaulted "subject" (Field.optional Field.text) none d.subject = .ok e.subject
  data : defaulted "data" Field.bytes [] d.data = .ok e.data
  extensions : extensionMap d.extensions = .ok e.extensions

end EventDraft

/-- A draft becomes an event exactly when every field of the event is what is read from it. -/
theorem Event.validate_eq_ok_iff {d : EventDraft} {e : Event} :
    Event.validate d = .ok e ↔ d.Gives e := by
  simp only [Event.validate]
  constructor
  · intro h
    obtain ⟨⟨specversion, id, source, type, time, contentType, schema, subject, data, extensions⟩,
      hfields, he⟩ := Except.bind_eq_ok_iff.mp h
    simp only [Checked.both_eq_ok_iff] at hfields
    obtain ⟨h1, h2, h3, h4, h5, h6, h7, h8, h9, h10⟩ := hfields
    cases he
    exact ⟨h1, h2, h3, h4, h5, h6, h7, h8, h9, h10⟩
  · rintro ⟨h1, h2, h3, h4, h5, h6, h7, h8, h9, h10⟩
    rw [h1, h2, h3, h4, h5, h6, h7, h8, h9, h10]
    rfl

end CloudEnvelope
