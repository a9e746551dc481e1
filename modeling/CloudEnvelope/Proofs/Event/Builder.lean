import CloudEnvelope.Event.Builder
import CloudEnvelope.Proofs.Attribute.Value
import CloudEnvelope.Proofs.Event.Data
import CloudEnvelope.Proofs.Event.ReadBack

/-!
# What builders make of values

Attributes are resolved one by one (`EventBuilder.resolve_eq_ok_iff`) and found under their names
(`EventBuilder.get?_entriesOf`), and an event that is built of them has exactly these
(`EventBuilder.build_eq_ok_iff`).  It is built when the mandatory attributes are there and not
empty and hold no lone surrogate, and the payload has data; nothing else is asked of the other
attributes than that they have the form of their kind.
-/

namespace CloudEnvelope

/-- The value of an attribute in an event. -/
def Event.attribute? (e : Event) : ContextAttribute → Option AttributeValue
  | .id => some (.text e.id)
  | .source => some (.text e.source)
  | .type => some (.text e.type)
  | .time => e.time.map .time
  | .dataContentType => e.dataContentType.map .text
  | .dataSchema => e.dataSchema.map .text
  | .subject => e.subject.map .text

/-- The attributes of an event are its version and the values of the attributes that headers can
supply, in their order. -/
theorem Event.attributes_eq (e : Event) :
    e.attributes = ("specversion", .text e.specversion) ::
      ContextAttribute.all.filterMap fun a => (e.attribute? a).map fun v => (a.name, v) := by
  simp only [attributes, ContextAttribute.all, List.filterMap_cons, List.filterMap_nil, attribute?,
    ContextAttribute.name]
  cases e.time <;> cases e.dataContentType <;> cases e.dataSchema <;> cases e.subject <;> rfl

/-- The mandatory attributes of an event are strings that are not empty. -/
theorem Event.exists_string (e : Event) {a : ContextAttribute}
    (ha : a ∈ ContextAttribute.mandatory) :
    ∃ s : String, s ≠ "" ∧ e.attribute? a = some (.text s) := by
  simp only [ContextAttribute.mandatory, List.mem_cons, List.not_mem_nil, or_false] at ha
  rcases ha with rfl | rfl | rfl
  · exact ⟨e.id, e.id_ne, rfl⟩
  · exact ⟨e.source, e.source_ne, rfl⟩
  · exact ⟨e.type, e.type_ne, rfl⟩

/-! ### Reading attribute values -/

namespace EventDraft

variable {name : Text} {x : Option AttributeValue}

/-- A mandatory attribute is read from a text that is not empty and free of lone surrogates. -/
theorem mandatory_eq_ok_iff {s : { s : String // s ≠ "" }} :
    mandatory name Field.nonempty (x.map AttributeValue.toValue) = .ok s
      ↔ x = some (.text s.val) := by
  constructor
  · intro h
    cases x with
    | none => cases h
    | some x =>
      have hread : Field.nonempty x.toValue = .ok s := Checked.at'_eq_ok_iff.mp h
      cases x with
      | time t => cases hread
      | text t =>
        simp only [AttributeValue.toValue, Field.nonempty, Field.text] at hread
        split at hread
        · rename_i s' hs'
          split at hread
          · cases hread
            rw [Text.toString?_eq_some_iff.mp hs']
          · cases hread
        · cases hread
  · rintro rfl
    exact congrArg (Checked.at' _) (Field.nonempty_text s.property)

/-- An optional text is read as it is. -/
theorem optional_text_eq_ok_iff {r : Option Text} :
    defaulted name (Field.optional Field.text) none
      (some ((x.map AttributeValue.toValue).getD .null)) = .ok r ↔ r.map .text = x := by
  rw [defaulted, Checked.at'_eq_ok_iff]
  cases x with
  | none => cases r <;> simp [Field.optional]
  | some x =>
    cases x <;> cases r <;>
      simp [Field.optional, AttributeValue.toValue, Field.text, Except.map, eq_comm]

/-- An optional time is read as it is. -/
theorem optional_time_eq_ok_iff {r : Option DateTime}
    (h : ∀ y ∈ x, AttributeKind.timestamp.Holds y) :
    defaulted name (Field.optional Field.time) none
      (some ((x.map AttributeValue.toValue).getD .null)) = .ok r ↔ r.map .time = x := by
  rw [defaulted, Checked.at'_eq_ok_iff]
  cases x with
  | none => cases r <;> simp [Field.optional]
  | some x =>
    cases x with
    | text t => exact (h _ rfl).elim
    | time t =>
      cases r <;>
        simp [Field.optional, AttributeValue.toValue, Field.time, Except.map, eq_comm]

end EventDraft

namespace EventBuilder

/-! ### Resolved attributes -/

/-- The entries of the attributes that have a value. -/
def entriesOf (value : ContextAttribute → Option AttributeValue)
    (attributes : List ContextAttribute) : List (Text × Value) :=
  attributes.filterMap fun a => (value a).map fun v => ((a.name : Text), v.toValue)

/-- All attributes are resolved exactly when each one is, and then to their values. -/
theorem resolveAll_eq_ok_iff {headers : Headers} {value : ContextAttribute → Option AttributeValue}
    {Resolvable : ContextAttribute → Prop} {specs : List (ContextAttribute × AttributeSpec)}
    (h : ∀ e ∈ specs, ∀ r, e.2.resolve headers = .ok r ↔ Resolvable e.1 ∧ value e.1 = r)
    {es : List (Text × Value)} :
    resolveAll headers specs = .ok es ↔
      (∀ e ∈ specs, Resolvable e.1) ∧ entriesOf value (specs.map (·.1)) = es := by
  induction specs generalizing es with
  | nil => simp [resolveAll, entriesOf]
  | cons e rest ih =>
    rw [List.forall_mem_cons] at h
    obtain ⟨hfirst, hrest⟩ := h
    obtain ⟨a, s⟩ := e
    rw [List.forall_mem_cons]
    cases hresolve : s.resolve headers with
    | error f =>
      -- The first failure ends the run, whatever the other attributes are.
      have hnot : ¬Resolvable a := fun hres => by
        rw [(hfirst _).mpr ⟨hres, rfl⟩] at hresolve
        cases hresolve
      simp [resolveAll, hresolve, hnot]
    | ok r =>
      obtain ⟨hres, hvalue⟩ := (hfirst r).mp hresolve
      cases r with
      | none =>
        simp only [resolveAll, hresolve, ih hrest, entriesOf, List.map_cons, List.filterMap_cons,
          hvalue, Option.map_none, hres, true_and]
      | some v =>
        simp only [resolveAll, hresolve, Except.map_eq_ok_iff, ih hrest, entriesOf, List.map_cons,
          List.filterMap_cons, hvalue, Option.map_some, hres, true_and]
        constructor
        · rintro ⟨es, ⟨hall, rfl⟩, rfl⟩
          exact ⟨hall, rfl⟩
        · rintro ⟨hall, rfl⟩
          exact ⟨_, ⟨hall, rfl⟩, rfl⟩

/-- The attributes of headers are resolved exactly when each one is, and then to their values. -/
theorem resolve_eq_ok_iff {b : EventBuilder} {headers : Headers}
    {value : ContextAttribute → Option AttributeValue} {Resolvable : ContextAttribute → Prop}
    (h : ∀ e ∈ b.specs.entries, ∀ r, e.2.resolve headers = .ok r ↔
      Resolvable e.1 ∧ value e.1 = r) {attributes : OrderedMap Text Value} :
    b.resolve headers = .ok attributes ↔
      (∀ e ∈ b.specs.entries, Resolvable e.1) ∧ .ofList (entriesOf value b.specs.keys)
        = attributes := by
  rw [resolve, Except.map_eq_ok_iff]
  constructor
  · rintro ⟨es, hes, rfl⟩
    obtain ⟨hall, rfl⟩ := (resolveAll_eq_ok_iff h).mp hes
    exact ⟨hall, rfl⟩
  · rintro ⟨hall, rfl⟩
    exact ⟨_, (resolveAll_eq_ok_iff h).mpr ⟨hall, rfl⟩, rfl⟩

theorem map_fst_entriesOf_sublist (value : ContextAttribute → Option AttributeValue)
    (attributes : List ContextAttribute) :
    ((entriesOf value attributes).map (·.1)).Sublist
      (attributes.map fun a => (a.name : Text)) := by
  induction attributes with
  | nil => exact List.Sublist.refl _
  | cons a rest ih =>
    rw [entriesOf, List.filterMap_cons]
    cases value a with
    | none => exact ih.cons _
    | some v => exact ih.cons_cons _

theorem mem_entriesOf_iff {value : ContextAttribute → Option AttributeValue}
    {attributes : List ContextAttribute} {entry : Text × Value} :
    entry ∈ entriesOf value attributes ↔
      ∃ a ∈ attributes, ∃ x, value a = some x ∧ ((a.name : Text), x.toValue) = entry := by
  simp only [entriesOf, List.mem_filterMap, Option.map_eq_some_iff]

/-- Attributes are told apart by their names, so that no entry takes the place of another. -/
theorem nodup_entriesOf (value : ContextAttribute → Option AttributeValue)
    {attributes : List ContextAttribute} (h : attributes.Nodup) :
    ((entriesOf value attributes).map (·.1)).Nodup :=
  (h.map fun _ _ => ContextAttribute.name_inj.mp).sublist
    (map_fst_entriesOf_sublist value attributes)

/-- Every attribute that has a value is found under its name. -/
theorem get?_entriesOf {value : ContextAttribute → Option AttributeValue}
    {attributes : List ContextAttribute} (hnodup : attributes.Nodup)
    (hall : ∀ a, (value a).isSome → a ∈ attributes) (a : ContextAttribute) :
    (OrderedMap.ofList (entriesOf value attributes)).get? a.name
      = (value a).map AttributeValue.toValue := by
  ext v
  rw [OrderedMap.get?_eq_some_iff, OrderedMap.entries_ofList (nodup_entriesOf value hnodup),
    mem_entriesOf_iff, Option.map_eq_some_iff]
  constructor
  · rintro ⟨b, -, x, hx, heq⟩
    obtain ⟨hname, rfl⟩ := Prod.mk.inj heq
    exact ⟨x, ContextAttribute.name_inj.mp hname ▸ hx, rfl⟩
  · rintro ⟨x, hx, rfl⟩
    exact ⟨a, hall a (Option.isSome_of_eq_some hx), x, hx, rfl⟩

/-- Among all attributes each one that has a value is found. -/
theorem get?_entriesOf_all (value : ContextAttribute → Option AttributeValue)
    (a : ContextAttribute) :
    (OrderedMap.ofList (entriesOf value ContextAttribute.all)).get? a.name
      = (value a).map AttributeValue.toValue :=
  get?_entriesOf (by decide) (fun a _ => a.mem_all) a

end EventBuilder

/-! ### The attributes of an event -/

namespace Event

theorem map_attributes (e : Event) :
    (e.attributes.map fun x => ((x.1 : Text), x.2.toValue)) =
      (("specversion" : Text), Value.text e.specversion)
        :: EventBuilder.entriesOf e.attribute? ContextAttribute.all := by
  rw [attributes_eq, List.map_cons, List.map_filterMap]
  simp only [EventBuilder.entriesOf, Option.map_map]
  rfl

/-- The attributes of an event, its version among them, as a map. -/
def attributeMap (e : Event) : OrderedMap Text Value where
  entries := e.attributes.map fun x => ((x.1 : Text), x.2.toValue)
  nodup := by
    rw [map_attributes]
    have hfresh : ("specversion" : Text) ∉ ContextAttribute.all.map fun a => (a.name : Text) := by
      decide
    exact List.nodup_cons.mpr
      ⟨fun hmem => hfresh ((EventBuilder.map_fst_entriesOf_sublist _ _).subset hmem),
        EventBuilder.nodup_entriesOf _ (by decide)⟩

end Event

/-- The text of an attribute where only text can stand: a time is printed. -/
def AttributeValue.form : AttributeValue → Text
  | text t => t
  | time t => Text.ofChars t.rfc3339

namespace EventBuilder

/-! ### Building -/

/-- An event that has the values of attributes, the data of a payload, and extensions. -/
structure Built (room : Nat) (value : ContextAttribute → Option AttributeValue) (payload : Value)
    (extensions : Headers) (e : Event) : Prop where
  specversion : e.specversion = Event.currentVersion
  attributes : ∀ a, e.attribute? a = value a
  data : payload.toData? room = some e.data
  extensions : e.extensions = extensions

variable {attributes : OrderedMap Text Value} {value : ContextAttribute → Option AttributeValue}
  {payload : Value} {room : Nat} {extensions : Headers} {e : Event}

theorem demand_eq_ok_iff {a : ContextAttribute} {v : Value}
    (hget : attributes.get? a.name = (value a).map AttributeValue.toValue) :
    demand attributes a = .ok v ↔ ∃ x, value a = some x ∧ x.toValue = v := by
  rw [demand, hget]
  cases value a <;> simp

/-- The draft of the values of attributes, of data and of extensions. -/
def draftOf (value : ContextAttribute → Option AttributeValue) (data : Bytes)
    (extensions : Headers) : EventDraft where
  id := (value .id).map AttributeValue.toValue
  source := (value .source).map AttributeValue.toValue
  type := (value .type).map AttributeValue.toValue
  time := some (((value .time).map AttributeValue.toValue).getD .null)
  dataContentType := some (((value .dataContentType).map AttributeValue.toValue).getD .null)
  dataSchema := some (((value .dataSchema).map AttributeValue.toValue).getD .null)
  subject := some (((value .subject).map AttributeValue.toValue).getD .null)
  data := some (.bytes data)
  extensions := extensions.entries.map fun e => (.text e.1, e.2)

/-- A draft of values gives the event that has these values. -/
theorem draftOf_gives_iff {data : Bytes} (hdata : payload.toData? room = some data)
    (htime : ∀ x ∈ value .time, AttributeKind.timestamp.Holds x) :
    (draftOf value data extensions).Gives e ↔ Built room value payload extensions e := by
  have hextensions : EventDraft.extensionMap (draftOf value data extensions).extensions
      = .ok extensions := by
    rw [draftOf, EventDraft.extensionMap_texts, OrderedMap.ofList_entries]
  constructor
  · intro h
    refine ⟨(Except.ok.inj h.specversion).symm, fun a => ?_, ?_, ?_⟩
    · cases a with
      | id => exact (EventDraft.mandatory_eq_ok_iff.mp h.id).symm
      | source => exact (EventDraft.mandatory_eq_ok_iff.mp h.source).symm
      | type => exact (EventDraft.mandatory_eq_ok_iff.mp h.type).symm
      | time => exact (EventDraft.optional_time_eq_ok_iff htime).mp h.time
      | dataContentType => exact EventDraft.optional_text_eq_ok_iff.mp h.dataContentType
      | dataSchema => exact EventDraft.optional_text_eq_ok_iff.mp h.dataSchema
      | subject => exact EventDraft.optional_text_eq_ok_iff.mp h.subject
    · rw [hdata]
      exact congrArg some (Except.ok.inj h.data)
    · exact Except.ok.inj (h.extensions.symm.trans hextensions)
  · intro h
    constructor
    case specversion => exact congrArg Except.ok h.specversion.symm
    case id => exact EventDraft.mandatory_eq_ok_iff.mpr (h.attributes .id).symm
    case source => exact EventDraft.mandatory_eq_ok_iff.mpr (h.attributes .source).symm
    case type => exact EventDraft.mandatory_eq_ok_iff.mpr (h.attributes .type).symm
    case time => exact (EventDraft.optional_time_eq_ok_iff htime).mpr (h.attributes .time)
    case dataContentType =>
      exact EventDraft.optional_text_eq_ok_iff.mpr (h.attributes .dataContentType)
    case dataSchema => exact EventDraft.optional_text_eq_ok_iff.mpr (h.attributes .dataSchema)
    case subject => exact EventDraft.optional_text_eq_ok_iff.mpr (h.attributes .subject)
    case data =>
      have hsame : data = e.data := Option.some.inj (hdata.symm.trans h.data)
      exact congrArg Except.ok hsame
    case extensions => rw [hextensions, h.extensions]

/-- When the mandatory attributes are there and no extension collides, all that is left to do is to
make data of the payload and to validate a draft with that data. -/
theorem exists_draft_of_build (payload : Value) (room : Nat)
    (hdemand : ∀ a ∈ ContextAttribute.mandatory, ∃ v, demand attributes a = .ok v)
    (hfree : colliding extensions = []) :
    ∃ draft : Bytes → EventDraft, build attributes payload extensions room =
      match payload.toData room with
      | .error fault => .error (.fault fault)
      | .ok data => (Event.validate (draft data)).mapError .invalidEvent := by
  obtain ⟨id, hid⟩ := hdemand .id (by decide)
  obtain ⟨source, hsource⟩ := hdemand .source (by decide)
  obtain ⟨type, htype⟩ := hdemand .type (by decide)
  refine ⟨fun data =>
    { id := some id
      source := some source
      type := some type
      time := some ((attributes.get? ContextAttribute.time.name).getD .null)
      dataContentType := some ((attributes.get? ContextAttribute.dataContentType.name).getD .null)
      dataSchema := some ((attributes.get? ContextAttribute.dataSchema.name).getD .null)
      subject := some ((attributes.get? ContextAttribute.subject.name).getD .null)
      data := some (.bytes data)
      extensions := extensions.entries.map fun e => (.text e.1, e.2) }, ?_⟩
  simp only [build, hfree, ne_eq, not_true_eq_false, if_false, hid, hsource, htype, bind,
    Except.bind]
  cases payload.toData room with
  | error fault => rfl
  | ok data =>
    simp only
    cases Event.validate _ <;> rfl

/-- An event is built exactly when it has the values, the data and the extensions. -/
theorem build_eq_ok_iff
    (hget : ∀ a : ContextAttribute,
      attributes.get? a.name = (value a).map AttributeValue.toValue)
    (htime : ∀ x ∈ value .time, AttributeKind.timestamp.Holds x)
    (hfree : colliding extensions = []) :
    build attributes payload extensions room = .ok e ↔ Built room value payload extensions e := by
  -- The mandatory attributes are demanded before the draft is validated, which asks for them again.
  simp only [build, hfree, ne_eq, not_true_eq_false, if_false, Except.bind_eq_ok_iff,
    demand_eq_ok_iff (hget _), hget]
  constructor
  · rintro ⟨_, ⟨id, hid, rfl⟩, _, ⟨source, hsource, rfl⟩, _, ⟨type, htype, rfl⟩, h⟩
    split at h
    · cases h
    · rename_i data hdata
      split at h
      · rename_i hvalid
        cases h
        rw [← draftOf_gives_iff (Except.toOption_eq_some_iff.mpr hdata) htime,
          ← Event.validate_eq_ok_iff, draftOf, hid, hsource, htype]
        exact hvalid
      · cases h
  · intro h
    have hid : value .id = some (.text e.id) := (h.attributes .id).symm
    have hsource : value .source = some (.text e.source) := (h.attributes .source).symm
    have htype : value .type = some (.text e.type) := (h.attributes .type).symm
    refine ⟨_, ⟨_, hid, rfl⟩, _, ⟨_, hsource, rfl⟩, _, ⟨_, htype, rfl⟩, ?_⟩
    have hvalid := Event.validate_eq_ok_iff.mpr ((draftOf_gives_iff h.data htime).mpr h)
    rw [draftOf, hid, hsource, htype] at hvalid
    simp only [Option.map_some] at hvalid
    simp only [Except.toOption_eq_some_iff.mp h.data, hvalid]
    rfl

/-- There is an event of values that have the form of their kinds, when those of the mandatory
attributes are strings that are not empty. -/
theorem exists_built {data : Bytes} (hdata : payload.toData? room = some data)
    (hholds : ∀ a : ContextAttribute, ∀ x ∈ value a, a.kind.Holds x)
    (hmandatory : ∀ a ∈ ContextAttribute.mandatory, ∃ s : String, s ≠ "" ∧
      value a = some (.text s)) : ∃ e, Built room value payload extensions e := by
  obtain ⟨id, hid, hidValue⟩ := hmandatory .id (by decide)
  obtain ⟨source, hsource, hsourceValue⟩ := hmandatory .source (by decide)
  obtain ⟨type, htype, htypeValue⟩ := hmandatory .type (by decide)
  obtain ⟨time, htime⟩ := AttributeKind.exists_map_time (hholds .time)
  obtain ⟨contentType, hcontentType⟩ :=
    AttributeKind.exists_map_text (hholds .dataContentType) (by decide)
  obtain ⟨schema, hschema⟩ := AttributeKind.exists_map_text (hholds .dataSchema) (by decide)
  obtain ⟨subject, hsubject⟩ := AttributeKind.exists_map_text (hholds .subject) (by decide)
  refine ⟨⟨Event.currentVersion, id, source, type, time, contentType, schema, subject, data,
    extensions, hid, hsource, htype⟩, rfl, fun a => ?_, hdata, rfl⟩
  cases a with
  | id => exact hidValue.symm
  | source => exact hsourceValue.symm
  | type => exact htypeValue.symm
  | time => exact htime
  | dataContentType => exact hcontentType
  | dataSchema => exact hschema
  | subject => exact hsubject

end EventBuilder

end CloudEnvelope
