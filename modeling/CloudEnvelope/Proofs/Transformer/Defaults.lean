import CloudEnvelope.Proofs.Transformer.Failures

/-!
# Messages that have nothing but defaults

`Transformer.toEvent_bare_iff`: where settings give defaults for all mandatory attributes, a message
of bytes without headers has an event exactly when these defaults are fit for one.

A default is converted when its specification is made, and a source that is no URI is refused then.
That an identity or a type is empty, or that one of the three holds a lone surrogate, is only seen
when an event is validated: settings with such a default are accepted, and no message that has to
rely on it has an event.
-/

namespace CloudEnvelope

/-! ### Converted defaults -/

/-- A text that is converted is kept as it is, unless a time is read from it. -/
theorem AttributeKind.eq_of_convert_text {kind : AttributeKind} {name t : Text}
    {x : AttributeValue} (h : kind.convert name (.text t) = .ok x) (hkind : kind ≠ .timestamp) :
    x = .text t := by
  cases kind with
  | timestamp => exact absurd rfl hkind
  | string =>
    cases h
    rfl
  | uri =>
    have h : (toUri name (.text t)).map AttributeValue.text = .ok x := h
    obtain ⟨t', ht', rfl⟩ := Except.map_eq_ok_iff.mp h
    simp only [toUri] at ht'
    split at ht'
    · cases ht'
      rfl
    · cases ht'
    · cases ht'

/-- A default is converted to a text that it was before, or else to the form of a URL. -/
theorem AttributeKind.eq_text_or_url_of_convert {kind : AttributeKind} {name t : Text}
    {d : DefaultSetting} (h : kind.convert name d.toValue = .ok (.text t)) :
    d = .text t ∨ ∃ u : Url, d = .url u ∧ t = Text.ofString u.href := by
  have hkind : kind ≠ .timestamp := by
    rintro rfl
    exact holds_of_convert h
  cases d with
  | text t' =>
    have ht : AttributeValue.text t = .text t' := eq_of_convert_text h hkind
    cases ht
    exact .inl rfl
  | url u =>
    cases kind with
    | uri =>
      cases h
      exact .inr ⟨u, rfl, rfl⟩
    | _ => cases h
  | time s =>
    cases kind with
    | timestamp => exact absurd rfl hkind
    | _ => cases h

namespace Settings

variable {settings : Settings} {a : ContextAttribute} {s : AttributeSpec} {t : Text}

/-- A text that is the default of an attribute other than the time is its converted default. -/
theorem convertedDefault_of_text (h : settings.spec a = .ok s) (hkind : a.kind ≠ .timestamp)
    (ht : settings.defaults a = some (.text t)) :
    settings.convertedDefault a = some (.text t) := by
  obtain ⟨x, hx⟩ := (exists_spec_iff.mp ⟨s, h⟩).default _ ht
  have htext : x = .text t := AttributeKind.eq_of_convert_text hx hkind
  rw [convertedDefault, ht, Option.bind_some, hx, htext]
  rfl

/-- The only converted defaults that are texts are texts and the forms of URLs. -/
theorem default_of_convertedDefault (h : settings.convertedDefault a = some (.text t)) :
    settings.defaults a = some (.text t) ∨ ∃ u : Url, t = Text.ofString u.href := by
  obtain ⟨d, hd, hconvert⟩ := Option.bind_eq_some_iff.mp h
  rw [Except.toOption_eq_some_iff] at hconvert
  rcases AttributeKind.eq_text_or_url_of_convert hconvert with rfl | ⟨u, -, hu⟩
  · exact .inl hd
  · exact .inr ⟨u, hu⟩

/-- The defaults of the mandatory attributes are fit for an event. -/
structure Presentable (settings : Settings) : Prop where
  nonempty : ∀ a ∈ [ContextAttribute.id, .type], settings.defaults a ≠ some (.text [])
  loneFree : ∀ a ∈ ContextAttribute.mandatory, ∀ t, settings.defaults a = some (.text t) →
    t.LoneFree

end Settings

/-! ### Messages without headers -/

namespace Message

/-- A message of bytes and nothing else. -/
def bare (b : Bytes) : Message := ⟨.bytes b, .empty⟩

theorem suppliers_bare (settings : Settings) (a : ContextAttribute) (b : Bytes) :
    settings.suppliers a (bare b).headers = [] := rfl

end Message

namespace Transformer

variable {settings : Settings} {formats : List (Supplied EventFormat)}
  {converter : Option (Supplied MessageConverter)} {t : Transformer} {room : Nat}

/-- A message without headers is resolved to the defaults, when the mandatory attributes have
some. -/
theorem resolvable_bare (hdefaults : ∀ a ∈ ContextAttribute.mandatory, (settings.defaults a).isSome)
    (b : Bytes) (a : ContextAttribute) : settings.Resolvable (Message.bare b).headers a := by
  rw [Settings.resolvable_of_nil (Message.suppliers_bare settings a b)]
  exact hdefaults a

theorem value?_bare (settings : Settings) (a : ContextAttribute) (b : Bytes) :
    settings.value? (Message.bare b).headers a = settings.convertedDefault a :=
  Settings.value?_of_nil (Message.suppliers_bare settings a b)

/-- A message without headers is acceptable exactly when the defaults are fit for an event. -/
theorem acceptable_bare_iff (h : Constructed settings formats converter t)
    (hdefaults : ∀ a ∈ ContextAttribute.mandatory, (settings.defaults a).isSome) (b : Bytes) :
    Acceptable settings room (Message.bare b) ↔ settings.Presentable := by
  have hconverted : ∀ a ∈ ContextAttribute.mandatory, ∀ t,
      settings.defaults a = some (.text t) → settings.convertedDefault a = some (.text t) := by
    intro a ha t ht
    obtain ⟨s, -, hspec⟩ := h.exists_spec a
    have hkind : a.kind ≠ .timestamp := by
      cases a <;> revert ha <;> decide
    exact Settings.convertedDefault_of_text hspec hkind ht
  have hmandatory : ∀ a ∈ [ContextAttribute.id, .type], a ∈ ContextAttribute.mandatory := by decide
  constructor
  · intro hm
    refine ⟨fun a ha hempty => hm.nonempty a ha ?_, fun a ha t ht => hm.loneFree a ha t ?_⟩
    · rw [value?_bare]
      exact hconverted a (hmandatory a ha) [] hempty
    · rw [value?_bare]
      exact hconverted a ha t ht
  · intro hfit
    have hpayload : (Message.bare b).payload.Tellable room := ⟨nofun, nofun⟩
    refine ⟨resolvable_bare hdefaults b, fun a ha hempty => ?_, fun a ha t ht => ?_, hpayload,
      nofun⟩
    · rw [value?_bare] at hempty
      rcases Settings.default_of_convertedDefault hempty with htext | ⟨u, hu⟩
      · exact hfit.nonempty a ha htext
      · exact u.href_ne (Text.ofString_eq_nil_iff.mp hu.symm)
    · rw [value?_bare] at ht
      rcases Settings.default_of_convertedDefault ht with htext | ⟨u, rfl⟩
      · exact hfit.loneFree a ha t htext
      · exact Text.loneFree_ofString u.href

/-- When its attributes are resolved and its payload has data, a message can only fail in
validation. -/
theorem exists_problems_of_toEvent (h : Constructed settings formats converter t) {m : Message}
    (hres : ∀ a, settings.Resolvable m.headers a) (hdata : (m.payload.toData? room).isSome)
    {failure : Failure} (herror : t.toEvent m room = .error failure) :
    ∃ problems, failure = .invalidEvent problems := by
  have hresolve := h.resolve_eq_ok_iff.mpr ⟨hres, rfl⟩
  obtain ⟨data, hdata⟩ := Except.isSome_toOption_iff.mp hdata
  rw [toEvent, hresolve] at herror
  obtain ⟨draft, hbuild⟩ := EventBuilder.exists_draft_of_build m.payload room
    (EventBuilder.exists_demand hresolve) (h.colliding_extensions m.headers)
  have hvalid : (Event.validate (draft data)).mapError Failure.invalidEvent = .error failure := by
    rw [hdata] at hbuild
    exact hbuild.symm.trans herror
  obtain ⟨problems, -, rfl⟩ := Except.mapError_eq_error_iff.mp hvalid
  exact ⟨problems, rfl⟩

/-- Where the mandatory attributes have defaults, a message without headers has an event exactly
when these are fit for one.  Its attributes are then the converted defaults.  Otherwise the message
fails in validation, which is the first to object. -/
theorem toEvent_bare_iff (hmake : make settings formats converter = .ok t)
    (hdefaults : ∀ a ∈ ContextAttribute.mandatory, (settings.defaults a).isSome) (b : Bytes) :
    ((∃ e, t.toEvent (Message.bare b) room = .ok e) ↔ settings.Presentable) ∧
      (∀ e, t.toEvent (Message.bare b) room = .ok e →
        (∀ a, e.attribute? a = settings.convertedDefault a) ∧ e.data = b ∧
          e.extensions.entries = []) ∧
      ∀ failure, t.toEvent (Message.bare b) room = .error failure →
        ∃ problems, failure = .invalidEvent problems := by
  have h := make_eq_ok_iff.mp hmake
  refine ⟨?_, fun e he => ?_, fun failure => ?_⟩
  · rw [exists_toEvent_iff h, acceptable_bare_iff h hdefaults b]
  · obtain ⟨-, hbuilt⟩ := (toEvent_eq_ok_iff h).mp he
    refine ⟨fun a => ?_, ?_, ?_⟩
    · rw [hbuilt.attributes a, value?_bare]
    · exact (Option.some.inj hbuilt.data).symm
    · rw [hbuilt.extensions]
      rfl
  · exact exists_problems_of_toEvent h (resolvable_bare hdefaults b) rfl

/-- Settings that take all that an event must have from defaults. -/
def preset (id : Text) : Settings where
  patterns _ := none
  defaults
    | .id => some (.text id)
    | .source => some (.text "urn:x")
    | .type => some (.text "t")
    | _ => none
  extensionPatterns := none
  defaultMediaType := none

theorem toEvent_bare_iff_preset :
    ∃ t, make (preset "1") [.component .json] none = .ok t ∧
      (∀ a ∈ ContextAttribute.mandatory, ((preset "1").defaults a).isSome) ∧
      (preset "1").Presentable ∧ ∃ e, t.toEvent (Message.bare [0, 255]) = .ok e ∧
        (∀ a, e.attribute? a = (preset "1").convertedDefault a) ∧ e.data = [0, 255] ∧
          e.extensions.entries = [] := by
  have hok : ((make (preset "1") [.component .json] none).toOption.bind fun t =>
      (t.toEvent (Message.bare [0, 255])).toOption).isSome := by decide +kernel
  obtain ⟨e, he⟩ := Option.isSome_iff_exists.mp hok
  obtain ⟨t, ht, he⟩ := Option.bind_eq_some_iff.mp he
  rw [Except.toOption_eq_some_iff] at ht he
  have hdefaults : ∀ a ∈ ContextAttribute.mandatory, ((preset "1").defaults a).isSome := by decide
  obtain ⟨hiff, hvalues, -⟩ := toEvent_bare_iff ht hdefaults [0, 255]
  exact ⟨t, ht, hdefaults, hiff.mp ⟨e, he⟩, e, he, hvalues e he⟩

/-- An empty identity by default, and one with half of a surrogate pair, are accepted at first and
then fail every message that brings no identity of its own. -/
theorem preset_refused :
    (∃ t problems, make (preset []) [.component .json] none = .ok t ∧
      (∀ a ∈ ContextAttribute.mandatory, ((preset []).defaults a).isSome) ∧
      t.toEvent (Message.bare []) = .error (.invalidEvent problems)) ∧
    ∃ t problems, make (preset [.firstLone]) [.component .json] none = .ok t ∧
      (∀ a ∈ ContextAttribute.mandatory, ((preset [.firstLone]).defaults a).isSome) ∧
      t.toEvent (Message.bare []) = .error (.invalidEvent problems) := by
  have hok : ∀ id ∈ ([[], [.firstLone]] : List Text),
      ((make (preset id) [.component .json] none).toOption.any fun t =>
        match t.toEvent (Message.bare []) with
        | .error (.invalidEvent _) => true
        | _ => false) := by decide +kernel
  have hrefused : ∀ id ∈ ([[], [.firstLone]] : List Text), ∃ t problems,
      make (preset id) [.component .json] none = .ok t ∧
        (∀ a ∈ ContextAttribute.mandatory, ((preset id).defaults a).isSome) ∧
        t.toEvent (Message.bare []) = .error (.invalidEvent problems) := by
    intro id hid
    obtain ⟨t, ht, hfails⟩ := (Option.any_eq_true _ _).mp (hok id hid)
    rw [Except.toOption_eq_some_iff] at ht
    split at hfails
    · rename_i problems hproblems
      exact ⟨t, problems, ht, by simp [ContextAttribute.mandatory, preset], hproblems⟩
    · cases hfails
  exact ⟨hrefused [] (by simp), hrefused [.firstLone] (by simp)⟩

end Transformer

end CloudEnvelope
