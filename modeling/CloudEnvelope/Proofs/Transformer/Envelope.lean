import CloudEnvelope.Proofs.Attribute.Resolution
import CloudEnvelope.Proofs.Event.Builder

/-!
# The event of a message

`Transformer.toEvent_eq_ok_iff`: the event of a message is the one that is built of the values that
its headers and the settings give the attributes, of its payload, and of the headers that become
extensions.  `Transformer.exists_toEvent_iff` says which messages have an event: those whose headers
resolve every attribute, whose identity, source, type and payload have a form in UTF-8, the
identity and the type not being empty, and whose payload a text can be made of if need be.  The
other attributes may hold lone surrogates, and so may the names of extensions.
-/

namespace CloudEnvelope

namespace Transformer

variable {settings : Settings} {formats : List (Supplied EventFormat)}
  {converter : Option (Supplied MessageConverter)} {t : Transformer} {room : Nat}

namespace Constructed

/-- The attributes of headers are resolved exactly when each one can be, and then to their
values. -/
theorem resolve_eq_ok_iff (h : Constructed settings formats converter t) {headers : Headers}
    {attributes : OrderedMap Text Value} :
    t.builder.resolve headers = .ok attributes ↔ (∀ a, settings.Resolvable headers a) ∧
      .ofList (EventBuilder.entriesOf (settings.value? headers) ContextAttribute.all)
        = attributes := by
  obtain ⟨specs, hspecs, hb⟩ := h.builder
  have hall : (∀ e ∈ t.builder.specs.entries, settings.Resolvable headers e.1) ↔
      ∀ a, settings.Resolvable headers a := by
    refine ⟨fun hres a => ?_, fun hres e _ => hres e.1⟩
    obtain ⟨s, hmem, -⟩ := h.exists_spec a
    exact hres _ hmem
  have hspec : ∀ e ∈ t.builder.specs.entries, ∀ r, e.2.resolve headers = .ok r ↔
      settings.Resolvable headers e.1 ∧ settings.value? headers e.1 = r :=
    fun e he r => Settings.resolve_eq_ok_iff (Settings.spec_of_mem hspecs hb he)
  have hkeys : t.builder.specs.keys = ContextAttribute.all :=
    Settings.map_fst_of_specifies (Settings.forall₂_specs hspecs hb)
  rw [EventBuilder.resolve_eq_ok_iff hspec, hall, hkeys]

/-- No extension has a name that is forbidden. -/
theorem colliding_extensions (h : Constructed settings formats converter t) (headers : Headers) :
    EventBuilder.colliding (t.classifier.classify headers).extensions = [] := by
  -- A classifier that promotes such a name is refused by the constructor.
  have hpromoted : promotedNames t.classifier = [] := by
    have hreserved := h.reserved
    rw [checkReserved] at hreserved
    split at hreserved
    · assumption
    · cases hreserved
  rw [promotedNames, List.filter_eq_nil_iff] at hpromoted
  rw [EventBuilder.colliding, List.filter_eq_nil_iff]
  intro name hname hcontains
  obtain ⟨-, houtcome⟩ := OrderedMap.mem_keys_filter_iff.mp (OrderedMap.contains_iff.mp hcontains)
  exact hpromoted name hname houtcome

end Constructed

/-- The event of a message is built of the values of the attributes, the payload, and the headers
that become extensions, when every attribute can be resolved. -/
theorem toEvent_eq_ok_iff (h : Constructed settings formats converter t) {m : Message}
    {e : Event} :
    t.toEvent m room = .ok e ↔ (∀ a, settings.Resolvable m.headers a) ∧
      EventBuilder.Built room (settings.value? m.headers) m.payload
        (t.classifier.classify m.headers).extensions e := by
  have hbuild : EventBuilder.build (.ofList (EventBuilder.entriesOf (settings.value? m.headers)
      ContextAttribute.all)) m.payload (t.classifier.classify m.headers).extensions room = .ok e ↔
        EventBuilder.Built room (settings.value? m.headers) m.payload
          (t.classifier.classify m.headers).extensions e :=
    EventBuilder.build_eq_ok_iff (EventBuilder.get?_entriesOf_all (settings.value? m.headers))
      (fun x hx => Settings.holds_of_value? hx) (h.colliding_extensions m.headers)
  rw [toEvent, Except.bind_eq_ok_iff]
  constructor
  · rintro ⟨attributes, hattributes, he⟩
    obtain ⟨hres, rfl⟩ := h.resolve_eq_ok_iff.mp hattributes
    exact ⟨hres, hbuild.mp he⟩
  · rintro ⟨hres, he⟩
    exact ⟨_, h.resolve_eq_ok_iff.mpr ⟨hres, rfl⟩, hbuild.mpr he⟩

/-- What a message needs in order to have an event, where there is room for so many values inside
one another. -/
structure Acceptable (settings : Settings) (room : Nat) (m : Message) : Prop where
  resolvable : ∀ a, settings.Resolvable m.headers a
  nonempty : ∀ a ∈ [ContextAttribute.id, .type], settings.value? m.headers a ≠ some (.text [])
  loneFree : ∀ a ∈ ContextAttribute.mandatory, ∀ t, settings.value? m.headers a = some (.text t) →
    t.LoneFree
  payload : m.payload.Tellable room
  payloadText : ∀ t, m.payload.dataText? = some t → t.LoneFree

theorem Acceptable.ne_nil {m : Message} (hm : Acceptable settings room m) {a : ContextAttribute}
    (ha : a ∈ ContextAttribute.mandatory) {t : Text}
    (ht : settings.value? m.headers a = some (.text t)) : t ≠ [] := by
  rintro rfl
  simp only [ContextAttribute.mandatory, List.mem_cons, List.not_mem_nil, or_false] at ha
  rcases ha with rfl | rfl | rfl
  · exact hm.nonempty .id (by decide) ht
  · -- The source has to be converted to a URI, which is never empty.
    obtain ⟨v, hv⟩ := Settings.exists_convert_of_value? ht
    exact AttributeKind.ne_nil_of_convert_uri hv rfl
  · exact hm.nonempty .type (by decide) ht

/-- The mandatory attributes of an acceptable message are strings that are not empty. -/
theorem Acceptable.exists_string (h : Constructed settings formats converter t) {m : Message}
    (hm : Acceptable settings room m) {a : ContextAttribute} (ha : a ∈ ContextAttribute.mandatory) :
    ∃ s : String, s ≠ "" ∧ settings.value? m.headers a = some (.text s) := by
  obtain ⟨s, -, hspec⟩ := h.exists_spec a
  obtain ⟨x, hx⟩ := Settings.exists_value?_of_mandatory hspec (hm.resolvable a) ha
  have hkind : a.kind ≠ .timestamp := by
    cases a <;> revert ha <;> decide
  obtain ⟨r, hr⟩ := AttributeKind.exists_map_text
    (fun y (hy : y ∈ some x) => Option.some.inj hy ▸ Settings.holds_of_value? hx) hkind
  obtain ⟨t, -, rfl⟩ := Option.map_eq_some_iff.mp hr
  obtain ⟨cs, rfl⟩ := Text.loneFree_iff.mp (hm.loneFree a ha t hx)
  refine ⟨String.ofList cs, fun hempty => ?_, ?_⟩
  · rw [String.ofList_eq_empty_iff] at hempty
    exact hm.ne_nil ha hx (by rw [hempty]; rfl)
  · rw [hx, Text.ofString, String.toList_ofList]
    rfl

/-- A message has an event exactly when it is acceptable. -/
theorem exists_toEvent_iff (h : Constructed settings formats converter t) {m : Message} :
    (∃ e, t.toEvent m room = .ok e) ↔ Acceptable settings room m := by
  simp only [toEvent_eq_ok_iff h, exists_and_left]
  constructor
  · rintro ⟨hres, e, he⟩
    -- The mandatory attributes of an event are strings, so that they have no lone surrogates.
    have hvalue : ∀ a x, settings.value? m.headers a = some x → e.attribute? a = some x :=
      fun a x hx => (he.attributes a).trans hx
    obtain ⟨htellable, htext⟩ := Value.isSome_toData?_iff.mp (Option.isSome_of_eq_some he.data)
    refine ⟨hres, ?_, ?_, htellable, htext⟩
    · intro a ha hempty
      have hmandatory : a ∈ ContextAttribute.mandatory := by
        revert ha
        cases a <;> decide
      obtain ⟨s, hne, hs⟩ := e.exists_string hmandatory
      rw [hvalue a _ hempty] at hs
      have hnil : Text.ofString s = [] := (AttributeValue.text.inj (Option.some.inj hs)).symm
      exact hne (Text.ofString_eq_nil_iff.mp hnil)
    · intro a ha t ht
      obtain ⟨s, -, hs⟩ := e.exists_string ha
      rw [hvalue a _ ht] at hs
      cases hs
      exact Text.loneFree_ofString s
  · intro hm
    refine ⟨hm.resolvable, ?_⟩
    obtain ⟨data, hdata⟩ := Option.isSome_iff_exists.mp
      (Value.isSome_toData?_iff.mpr ⟨hm.payload, hm.payloadText⟩)
    exact EventBuilder.exists_built hdata (fun a x hx => Settings.holds_of_value? hx)
      fun a ha => hm.exists_string h ha

/-- Settings that take the identity, the time and the subject from headers, and the source and the
type from defaults. -/
def addressed : Settings where
  patterns
    | .id => some "id"
    | .time => some "at-*"
    | .subject => some "subject"
    | _ => none
  defaults
    | .source => some (.text "urn:x")
    | .type => some (.text "t")
    | _ => none
  extensionPatterns := some ["x-*"]
  defaultMediaType := none

/-- A message that supplies all of these, with an extension and a header that passes through. -/
def noonMessage : Message where
  payload := .list [.int 1, .text "é"]
  headers :=
    ⟨[("x-a", .null), ("at-noon", .text "2024-02-29T12:00:00+05:30"), ("subject", .text ""),
      ("id", .text "1"), ("b", .null)], by decide⟩

end Transformer

end CloudEnvelope
