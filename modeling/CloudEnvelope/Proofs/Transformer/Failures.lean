import CloudEnvelope.Proofs.Event.Attributes
import CloudEnvelope.Proofs.Format.Encoders
import CloudEnvelope.Proofs.Transformer.Configuration
import CloudEnvelope.Proofs.Transformer.Envelope

/-!
# What a transformation fails for

`Transformer.transform_error_not_configuration`: a transformer that was made does not fail a message
for a mistake in its configuration.  The checks that the later stages repeat never object: every
mandatory attribute has a value by the time that it is demanded, no extension has a name that is
forbidden, and where no media type is asked for there is a format to write in.  What remains is what
the message itself lacks (`Failure.OfMessage`), or what an encoder cannot carry.
-/

namespace CloudEnvelope

/-- What only the message can be wrong about. -/
def Failure.OfMessage : Failure → Prop
  | missingAttribute _ _ => True
  | ambiguousAttribute _ _ _ => True
  | typeMismatch _ => True
  | invalidEvent _ => True
  | fault f => f ∈ [Fault.unencodableText, .tooManyDigits, .nestedTooDeep]
  | _ => False

/-- What only the headers of a message can be wrong about. -/
def Failure.OfHeaders : Failure → Prop
  | missingAttribute _ _ => True
  | ambiguousAttribute _ _ _ => True
  | typeMismatch _ => True
  | _ => False

theorem Failure.OfHeaders.ofMessage {failure : Failure} (h : failure.OfHeaders) :
    failure.OfMessage := by
  cases failure <;> trivial

variable {failure : Failure}

/-! ### Attributes -/

theorem Attribute.ofHeaders_of_resolve {α : Type} {headers : Headers} {p : HeaderPattern}
    {default : Option α} {convert : Text → Value → Except TypeMismatch α} {name : Text}
    {required : Bool} (h : resolve headers p default convert name required = .error failure) :
    failure.OfHeaders := by
  unfold resolve at h
  split at h
  · split at h
    · cases h
      trivial
    · cases h
  · split at h
    · cases h
    · cases h
      trivial
  · cases h
    trivial

theorem AttributeSpec.ofHeaders_of_resolve {s : AttributeSpec} {headers : Headers}
    (h : s.resolve headers = .error failure) : failure.OfHeaders := by
  rw [resolve] at h
  split at h
  · cases h
  · exact Attribute.ofHeaders_of_resolve h

namespace EventBuilder

theorem ofHeaders_of_resolveAll {headers : Headers} {es : List (ContextAttribute × AttributeSpec)}
    (h : resolveAll headers es = .error failure) : failure.OfHeaders := by
  induction es with
  | nil => cases h
  | cons e rest ih =>
    rw [resolveAll] at h
    split at h
    · rename_i hresolve
      cases h
      exact AttributeSpec.ofHeaders_of_resolve hresolve
    · exact ih h
    · exact ih (Except.map_eq_error_iff.mp h)

theorem ofHeaders_of_resolve {b : EventBuilder} {headers : Headers}
    (h : b.resolve headers = .error failure) : failure.OfHeaders :=
  ofHeaders_of_resolveAll (Except.map_eq_error_iff.mp h)

/-! ### Events -/

/-- When the mandatory attributes are there and no extension collides, an event can only fail for
its payload or in validation. -/
theorem ofMessage_of_build {attributes : OrderedMap Text Value} {payload : Value}
    {extensions : Headers} {room : Nat}
    (hdemand : ∀ a ∈ ContextAttribute.mandatory, ∃ v, demand attributes a = .ok v)
    (hfree : colliding extensions = [])
    (h : build attributes payload extensions room = .error failure) : failure.OfMessage := by
  obtain ⟨draft, hbuild⟩ := exists_draft_of_build payload room hdemand hfree
  rw [hbuild] at h
  split at h
  · rename_i hfault
    cases h
    exact Value.mem_faults_of_toData hfault
  · obtain ⟨problems, -, rfl⟩ := Except.mapError_eq_error_iff.mp h
    trivial

end EventBuilder

namespace Transformer

variable {settings : Settings} {formats : List (Supplied EventFormat)}
  {converter : Option (Supplied MessageConverter)} {t : Transformer} {room : Nat}

theorem ofMessage_of_toEvent (h : Constructed settings formats converter t) {m : Message}
    (herror : t.toEvent m room = .error failure) : failure.OfMessage := by
  rcases Except.bind_eq_error_iff.mp herror with hresolve | ⟨attributes, hresolve, hbuild⟩
  · exact (EventBuilder.ofHeaders_of_resolve hresolve).ofMessage
  · exact EventBuilder.ofMessage_of_build (EventBuilder.exists_demand hresolve)
      (h.colliding_extensions m.headers) hbuild

/-- The event of a message has no extension whose name is forbidden. -/
theorem not_isForbidden_of_toEvent (h : Constructed settings formats converter t) {m : Message}
    {e : Event} (he : t.toEvent m room = .ok e) :
    ∀ x ∈ e.extensions.entries, ¬ExtensionValue.isForbidden x.1 := by
  intro x hx hforbidden
  obtain ⟨-, hbuilt⟩ := (toEvent_eq_ok_iff h).mp he
  have hfree := h.colliding_extensions m.headers
  rw [← hbuilt.extensions, EventBuilder.colliding, List.filter_eq_nil_iff] at hfree
  refine hfree x.1 (ExtensionValue.isForbidden_iff.mp hforbidden) ?_
  exact OrderedMap.contains_iff.mpr (OrderedMap.mem_keys_iff.mpr ⟨x.2, hx⟩)

/-! ### Encoding -/

/-- A strategy of formats comes of formats, whose registry it holds. -/
theorem Constructed.exists_formats (h : Constructed settings formats converter t)
    {registry : FormatRegistry} (hstrategy : t.strategy = .formats registry) :
    ∃ fs : List EventFormat, fs ≠ [] ∧ formats = fs.map .component ∧
      registry.formats.entries = fs.map EventFormat.entry := by
  rcases Strategy.make_eq_ok_iff.mp h.strategy with ⟨-, k, -, hk⟩ | ⟨hne, -, r, hr, hsame⟩
  · rw [hk] at hstrategy
    cases hstrategy
  · rw [hstrategy] at hsame
    cases hsame
    obtain ⟨fs, rfl, -, hentries⟩ := FormatRegistry.ofList_eq_ok_iff.mp hr
    exact ⟨fs, fun hnil => hne (by rw [hnil, List.map_nil]), rfl, hentries⟩

/-- Where no media type is asked for there is a format: the default has been checked against the
registry, and the registry is not empty. -/
theorem Constructed.exists_format (h : Constructed settings formats converter t)
    {registry : FormatRegistry} (hstrategy : t.strategy = .formats registry) :
    ∃ f, .component f ∈ formats ∧ t.chooseFormat registry none = .ok f := by
  obtain ⟨fs, hne, rfl, hentries⟩ := h.exists_formats hstrategy
  have hcheck : (Strategy.formats registry).checkDefault t.defaultMediaType = .ok () := by
    rw [h.defaultMediaType, ← hstrategy]
    exact h.default
  cases hdefault : t.defaultMediaType with
  | none =>
    obtain ⟨f, hf, hfirst⟩ := FormatRegistry.exists_first hentries hne
    refine ⟨f, List.mem_map_of_mem hf, ?_⟩
    simp only [chooseFormat, hdefault]
    exact hfirst
  | some name =>
    rw [hdefault, Strategy.checkDefault] at hcheck
    split at hcheck
    · rename_i hhas
      obtain ⟨f, hf⟩ := FormatRegistry.exists_get_iff.mpr hhas
      refine ⟨f, List.mem_map_of_mem (FormatRegistry.mem_of_get hentries hf), ?_⟩
      simp only [chooseFormat, hdefault]
      exact hf
    · cases hcheck

/-- The format of a message is one of the configured formats.  There is one, unless it was asked
for. -/
theorem chooseFormat_cases (h : Constructed settings formats converter t)
    {registry : FormatRegistry} (hstrategy : t.strategy = .formats registry)
    (mediaType : Option Text) :
    (∃ f, .component f ∈ formats ∧ t.chooseFormat registry mediaType = .ok f) ∨
      mediaType.getD [] ≠ [] ∧ ∃ name available,
        t.chooseFormat registry mediaType = .error (.unsupportedFormat name available) := by
  rcases mediaType with _ | _ | ⟨c, rest⟩
  case none => exact .inl (h.exists_format hstrategy)
  case some.nil =>
    -- An empty media type is as good as none.
    exact .inl (h.exists_format hstrategy)
  case some.cons =>
    cases hfound : t.chooseFormat registry (some (c :: rest)) with
    | ok f =>
      obtain ⟨fs, -, rfl, hentries⟩ := h.exists_formats hstrategy
      exact .inl ⟨f, List.mem_map_of_mem (FormatRegistry.mem_of_get hentries hfound), rfl⟩
    | error failure =>
      obtain rfl := FormatRegistry.eq_of_get_eq_error hfound
      exact .inr ⟨List.cons_ne_nil c rest, _, _, rfl⟩

/-- A message is not encoded for what an encoder cannot carry, or because of the media type that is
asked for. -/
theorem encode_error_cases (h : Constructed settings formats converter t)
    (hformats : ∀ f, .component f ∈ formats → f ∈ EventFormat.standard)
    (hconverter : ∀ c, converter = some (.component c) → c.Standard) {e : Event} {headers : Headers}
    {mediaType : Option Text} (herror : t.encode e headers mediaType = .error failure) :
    failure.OfEncoder e.extensions.entries ∨
      mediaType.getD [] ≠ [] ∧ ∃ name available, failure = .unsupportedFormat name available := by
  rw [encode] at herror
  split at herror
  · rename_i c hstrategy
    have hc : c.Standard := by
      rcases Strategy.make_eq_ok_iff.mp h.strategy with ⟨-, k, hk, hsame⟩ | ⟨-, -, _, -, hsame⟩
      · rw [hstrategy] at hsame
        cases hsame
        exact hconverter c hk
      · rw [hstrategy] at hsame
        cases hsame
    rcases Except.bind_eq_error_iff.mp herror with herror | ⟨r, hr, herror⟩
    · exact .inl (MessageConverter.ofEncoder_of_convert hc herror)
    · -- A converter of this library that does not fail gives a message.
      obtain ⟨m, rfl⟩ := Option.isSome_iff_exists.mp (MessageConverter.isSome_of_convert hc hr)
      cases herror
  · rename_i registry hstrategy
    rcases chooseFormat_cases h hstrategy mediaType with ⟨f, hf, hchosen⟩ | ⟨hasked, name,
      available, hrefused⟩
    · rcases Except.bind_eq_error_iff.mp herror with herror | ⟨g, hg, herror⟩
      · rw [hchosen] at herror
        cases herror
      · obtain rfl : f = g := Except.ok.inj (hchosen.symm.trans hg)
        rcases Except.bind_eq_error_iff.mp herror with herror | ⟨_, -, ⟨⟩⟩
        exact .inl (EventFormat.ofEncoder_of_serialize (hformats f hf) herror)
    · rw [hrefused] at herror
      cases herror
      exact .inr ⟨hasked, name, available, rfl⟩

/-! ### Transformation -/

/-- A transformer that is made of the formats or the converters of this library fails no message for
its configuration, for an attribute that is not there, or for an extension with a taken name; and
there is always a format for a message when no media type is asked for. -/
theorem transform_error_not_configuration (hmake : make settings formats converter = .ok t)
    (hformats : ∀ f, .component f ∈ formats → f ∈ EventFormat.standard)
    (hconverter : ∀ c, converter = some (.component c) → c.Standard) {m : Message}
    {mediaType : Option Text} {failed : TransformationFailure}
    (herror : t.transform m mediaType room = .error failed) :
    failed.cause.kind? ≠ some .configuration ∧
      (∀ name, failed.cause ≠ .fault (.missingName name)) ∧
      (∀ issue, failed.cause = .encoding issue → ¬issue.Collides) ∧
      (mediaType.getD [] = [] → failed.cause.kind? ≠ some .unsupportedFormat) := by
  have h := make_eq_ok_iff.mp hmake
  obtain ⟨failure, hfailure, rfl⟩ := Except.mapError_eq_error_iff.mp herror
  rcases Except.bind_eq_error_iff.mp hfailure with hevent | ⟨e, he, hencode⟩
  · -- The message has no event, for something that it lacks itself.
    have hmessage := ofMessage_of_toEvent h hevent
    cases failure with
    | configuration _ => exact hmessage.elim
    | encoding _ => exact hmessage.elim
    | unsupportedFormat _ _ => exact hmessage.elim
    | fault f =>
      have hname : ∀ name, f ≠ .missingName name := by
        rintro name rfl
        simp [Failure.OfMessage] at hmessage
      simp [Failure.kind?, hname]
    | _ => simp [Failure.kind?]
  · rcases encode_error_cases h hformats hconverter hencode with hencoder |
      ⟨hasked, name, available, rfl⟩
    · cases hencoder with
      | digits _ => simp [Failure.kind?]
      | @encoding issue hconcerns =>
        -- A taken name would be that of an extension, and the event has no such extension.
        have hfree : ¬issue.Collides := by
          intro hcollides
          obtain ⟨x, hx, hforbidden⟩ := hconcerns hcollides
          exact not_isForbidden_of_toEvent h he x hx hforbidden
        simp [Failure.kind?, hfree]
    · simp [Failure.kind?, hasked]

/-- A header without a value becomes an extension, which JSON has no form for. -/
theorem transform_error_not_configuration_noonMessage :
    ∃ t failed, make addressed [.component .json] none = .ok t ∧
      t.transform noonMessage none = .error failed ∧
      failed.cause.kind? ≠ some .configuration ∧
      (∀ name, failed.cause ≠ .fault (.missingName name)) ∧
      (∀ issue, failed.cause = .encoding issue → ¬issue.Collides) ∧
      ((none : Option Text).getD [] = [] → failed.cause.kind? ≠ some .unsupportedFormat) := by
  have hok : ((make addressed [.component .json] none).toOption.any fun t =>
      (t.transform noonMessage none).toOption.isNone) := by decide +kernel
  obtain ⟨t, ht, hok⟩ := (Option.any_eq_true _ _).mp hok
  rw [Except.toOption_eq_some_iff] at ht
  cases hfailed : t.transform noonMessage none with
  | ok m =>
    rw [hfailed] at hok
    cases hok
  | error failed =>
    exact ⟨t, failed, ht, hfailed,
      transform_error_not_configuration ht (by simp [EventFormat.standard]) (by simp) hfailed⟩

end Transformer

end CloudEnvelope
