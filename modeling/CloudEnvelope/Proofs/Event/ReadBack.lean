import CloudEnvelope.Proofs.Event.Validation
import CloudEnvelope.Proofs.Extension

/-!
# Events read back

A format does not keep a time's offset and gives extensions their extension values.  `ReadBack` says
in what an event that is read from the bytes of another agrees with it.  Formats differ in how they
come to the values of the fields, but not in what they make of them (`Event.exists_validate_draft`).
-/

namespace CloudEnvelope.Event

/-- What is read back of an event `e`: all of it, but the time may have another offset, and the
extensions are their extension values, each in the form in which the format reads it. -/
structure ReadBack (form : ExtensionValue → Value) (e d : Event) : Prop where
  specversion : d.specversion = e.specversion
  id : d.id = e.id
  source : d.source = e.source
  type : d.type = e.type
  dataContentType : d.dataContentType = e.dataContentType
  dataSchema : d.dataSchema = e.dataSchema
  subject : d.subject = e.subject
  data : d.data = e.data
  instant : d.time.map DateTime.instant = e.time.map DateTime.instant
  aware : ∀ t ∈ d.time, t.offset.isSome
  extensions : List.Forall₂
    (fun x y => y.1 = x.1 ∧ ∃ v, ExtensionValue.ofValue x.1 x.2 = .ok v ∧ y.2 = form v)
    e.extensions.entries d.extensions.entries

/-- The entries of accepted extensions in the form of a format. -/
theorem forall₂_of_ofEntries {form : ExtensionValue → Value} {es : List (Text × Value)}
    {xs : List (Text × ExtensionValue)} (h : ExtensionValue.ofEntries es = .ok xs) :
    List.Forall₂ (fun x y => y.1 = x.1 ∧ ∃ v, ExtensionValue.ofValue x.1 x.2 = .ok v ∧ y.2 = form v)
      es (xs.map fun x => (x.1, form x.2)) := by
  rw [List.forall₂_map_right_iff]
  exact (ExtensionValue.ofEntries_eq_ok_iff.mp h).imp fun e x hread =>
    ⟨hread.1, x.2, hread.2, rfl⟩

/-- The field values of an event as formats read them: a value for its time, and its extensions in
the form of the format. -/
def draft (e : Event) (time : Value) (extensions : List (Text × Value)) : EventDraft where
  id := some (.text e.id)
  source := some (.text e.source)
  type := some (.text e.type)
  time := some time
  dataContentType := some ((e.dataContentType.map Value.text).getD .null)
  dataSchema := some ((e.dataSchema.map Value.text).getD .null)
  subject := some ((e.subject.map Value.text).getD .null)
  data := some (.bytes e.data)
  extensions := extensions.map fun x => (.text x.1, x.2)

/-- A draft becomes the event with the time and the extensions that are read from it. -/
theorem validate_draft {e : Event} {v : Value} {time : Option DateTime} {es : List (Text × Value)}
    (hversion : e.specversion = currentVersion) (htime : Field.optional Field.time v = .ok time) :
    Event.validate (e.draft v es) = .ok { e with time := time, extensions := .ofList es } := by
  refine Event.validate_eq_ok_iff.mpr ?_
  constructor
  case specversion => exact congrArg Except.ok hversion.symm
  case id => exact congrArg (Checked.at' _) (Field.nonempty_text e.id_ne)
  case source => exact congrArg (Checked.at' _) (Field.nonempty_text e.source_ne)
  case type => exact congrArg (Checked.at' _) (Field.nonempty_text e.type_ne)
  case time => exact congrArg (Checked.at' _) htime
  case dataContentType => exact congrArg (Checked.at' _) (Field.optional_text e.dataContentType)
  case dataSchema => exact congrArg (Checked.at' _) (Field.optional_text e.dataSchema)
  case subject => exact congrArg (Checked.at' _) (Field.optional_text e.subject)
  case data => rfl
  case extensions => exact EventDraft.extensionMap_texts es

/-- Accepted extensions keep their order in the form of a format. -/
theorem entries_ofList_form {e : Event} {xs : List (Text × ExtensionValue)}
    (hxs : ExtensionValue.ofEntries e.extensions.entries = .ok xs) (form : ExtensionValue → Value) :
    (OrderedMap.ofList (xs.map fun x => (x.1, form x.2))).entries
      = xs.map fun x => (x.1, form x.2) := by
  refine OrderedMap.entries_ofList ?_
  rw [List.map_map]
  show (xs.map (·.1)).Nodup
  rw [ExtensionValue.map_fst_of_ofEntries hxs]
  exact e.extensions.nodup

/-- The draft of an event becomes what is read back of it. -/
theorem exists_validate_draft {form : ExtensionValue → Value} {e : Event} {v : Value}
    {time : Option DateTime} {xs : List (Text × ExtensionValue)}
    (hversion : e.specversion = currentVersion)
    (hxs : ExtensionValue.ofEntries e.extensions.entries = .ok xs)
    (htime : Field.optional Field.time v = .ok time)
    (hinstant : time.map DateTime.instant = e.time.map DateTime.instant)
    (haware : ∀ t ∈ time, t.offset.isSome) :
    ∃ d, Event.validate (e.draft v (xs.map fun x => (x.1, form x.2))) = .ok d ∧
      e.ReadBack form d := by
  refine ⟨_, validate_draft hversion htime, rfl, rfl, rfl, rfl, rfl, rfl, rfl, rfl, hinstant,
    haware, ?_⟩
  rw [entries_ofList_form hxs form]
  exact forall₂_of_ofEntries hxs

end CloudEnvelope.Event
