import CloudEnvelope.Proofs.Transformer.Construction

/-!
# When attributes are resolved

`Settings.resolve_eq_ok_iff`: an attribute is resolved exactly when at most one header supplies it,
the value of this header can be converted, and there is a default if the attribute is mandatory and
no header supplies it (`Settings.Resolvable`).  What it is resolved to is `Settings.value?`.
-/

namespace CloudEnvelope.Settings

/-- The headers whose keys match the pattern of an attribute. -/
def suppliers (settings : Settings) (a : ContextAttribute) (headers : Headers) :
    List (Text × Value) :=
  headers.entries.filter fun e => settings.suppliesOne a e.1

/-- The default of an attribute, converted. -/
def convertedDefault (settings : Settings) (a : ContextAttribute) : Option AttributeValue :=
  (settings.defaults a).bind fun d => (a.kind.convert a.name d.toValue).toOption

/-- The value of an attribute: that of the header that supplies it, converted, or else its converted
default. -/
def value? (settings : Settings) (headers : Headers) (a : ContextAttribute) :
    Option AttributeValue :=
  match settings.suppliers a headers with
  | [] => settings.convertedDefault a
  | (_, v) :: _ => (a.kind.convert a.name v).toOption

/-- What an attribute needs in order to be resolved. -/
structure Resolvable (settings : Settings) (headers : Headers) (a : ContextAttribute) : Prop where
  unambiguous : (settings.suppliers a headers).length ≤ 1
  supplied : a ∈ ContextAttribute.mandatory → settings.suppliers a headers = [] →
    (settings.defaults a).isSome
  converted : ∀ x ∈ settings.suppliers a headers, ∃ value, a.kind.convert a.name x.2 = .ok value

variable {settings : Settings} {headers : Headers} {a : ContextAttribute} {s : AttributeSpec}

/-! ### Specifications -/

theorem suppliers_of_pattern {p : HeaderPattern} (h : settings.spec a = .ok s)
    (hpattern : s.pattern = some p) :
    Attribute.candidates headers p = settings.suppliers a headers := by
  refine List.filter_congr fun e _ => ?_
  rw [← any_accepts_of_spec h, hpattern, Option.any_some]

theorem suppliers_of_no_pattern (h : settings.spec a = .ok s) (hpattern : s.pattern = none) :
    settings.suppliers a headers = [] := by
  rw [suppliers, List.filter_eq_nil_iff]
  intro e _
  rw [← any_accepts_of_spec h, hpattern, Option.any_none]
  exact Bool.false_ne_true

/-- A default of settings is never null, so it is converted. -/
theorem toValue_ne_null (d : DefaultSetting) : d.toValue ≠ .null := by
  intro h
  cases d <;> cases h

theorem convertDefault_of_ne_null {name : Text} {kind : AttributeKind} {v : Value}
    (h : v ≠ .null) :
    AttributeSpec.convertDefault name kind (some v)
      = ((kind.convert name v).map some).mapError .invalidDefault := by
  cases v with
  | null => exact absurd rfl h
  | _ =>
    simp only [AttributeSpec.convertDefault]
    cases kind.convert name _ <;> rfl

theorem exists_convert_of_convertDefault {name : Text} {kind : AttributeKind} {d : DefaultSetting}
    {default : Option AttributeValue}
    (h : AttributeSpec.convertDefault name kind (some d.toValue) = .ok default) :
    ∃ value, kind.convert name d.toValue = .ok value ∧ default = some value := by
  rw [convertDefault_of_ne_null (toValue_ne_null d), Except.mapError_eq_ok_iff,
    Except.map_eq_ok_iff] at h
  obtain ⟨value, hvalue, rfl⟩ := h
  exact ⟨value, hvalue, rfl⟩

/-- The default of a specification is the converted default, which there is when settings give
one. -/
theorem default_of_spec (h : settings.spec a = .ok s) :
    s.default = settings.convertedDefault a ∧ s.default.isSome = (settings.defaults a).isSome := by
  have hdefault := (AttributeSpec.eq_of_make h).2.2.2.1
  rw [convertedDefault]
  cases hd : settings.defaults a with
  | none =>
    rw [hd] at hdefault
    rw [← Except.ok.inj hdefault]
    exact ⟨rfl, rfl⟩
  | some d =>
    rw [hd] at hdefault
    obtain ⟨value, hvalue, hsome⟩ := exists_convert_of_convertDefault hdefault
    rw [hsome, Option.bind_some, hvalue]
    exact ⟨rfl, rfl⟩

theorem required_of_spec (h : settings.spec a = .ok s) :
    s.required = true ↔ a ∈ ContextAttribute.mandatory := by
  obtain ⟨-, -, -, -, hrequired⟩ := AttributeSpec.eq_of_make h
  rw [hrequired, List.contains_iff_mem]

/-! ### Resolution -/

theorem value?_of_nil (h : settings.suppliers a headers = []) :
    settings.value? headers a = settings.convertedDefault a := by
  rw [value?, h]

theorem value?_of_singleton {x : Text × Value} (h : settings.suppliers a headers = [x]) :
    settings.value? headers a = (a.kind.convert a.name x.2).toOption := by
  rw [value?, h]

theorem resolvable_of_nil (h : settings.suppliers a headers = []) :
    settings.Resolvable headers a ↔
      (a ∈ ContextAttribute.mandatory → (settings.defaults a).isSome) := by
  refine ⟨fun hres hmandatory => hres.supplied hmandatory h, fun hdefault => ⟨?_, ?_, ?_⟩⟩
  · rw [h]
    exact Nat.zero_le 1
  · exact fun hmandatory _ => hdefault hmandatory
  · rw [h]
    exact fun _ hx => absurd hx List.not_mem_nil

theorem resolvable_of_singleton {x : Text × Value} (h : settings.suppliers a headers = [x]) :
    settings.Resolvable headers a ↔ ∃ value, a.kind.convert a.name x.2 = .ok value := by
  refine ⟨fun hres => hres.converted x ?_, fun hconvert => ⟨?_, ?_, ?_⟩⟩
  · rw [h]
    exact List.mem_singleton_self x
  · rw [h]
    exact Nat.le_refl 1
  · rw [h]
    exact fun _ hnil => absurd hnil (List.cons_ne_nil _ _)
  · rw [h]
    exact fun y hy => List.mem_singleton.mp hy ▸ hconvert

/-- An attribute is resolved exactly when it can be, and then to its value. -/
theorem resolve_eq_ok_iff (h : settings.spec a = .ok s) {r : Option AttributeValue} :
    s.resolve headers = .ok r ↔ settings.Resolvable headers a ∧ settings.value? headers a = r := by
  obtain ⟨hname, hkind, -⟩ := AttributeSpec.eq_of_make h
  obtain ⟨hdefault, hisSome⟩ := default_of_spec h
  have hrequired := required_of_spec h
  rw [AttributeSpec.resolve]
  cases hpattern : s.pattern with
  | none =>
    have hnil : settings.suppliers a headers = [] := suppliers_of_no_pattern h hpattern
    -- A specification without a pattern has a default when its attribute is mandatory.
    have hsupplied : a ∈ ContextAttribute.mandatory → (settings.defaults a).isSome := by
      intro hmandatory
      have hsome := s.supplied (hrequired.mpr hmandatory)
      rw [hpattern, hisSome] at hsome
      exact hsome.resolve_left Bool.false_ne_true
    rw [resolvable_of_nil hnil, value?_of_nil hnil, ← hdefault]
    exact ⟨fun heq => ⟨hsupplied, Except.ok.inj heq⟩, fun heq => congrArg Except.ok heq.2⟩
  | some p =>
    simp only [Attribute.resolve, suppliers_of_pattern h hpattern, hname, hkind]
    cases hsuppliers : settings.suppliers a headers with
    | nil =>
      rw [resolvable_of_nil hsuppliers, value?_of_nil hsuppliers, ← hdefault, ← hisSome,
        ← hrequired]
      -- Without a header the default decides, and whether the attribute may be absent.
      cases s.default <;> cases s.required <;> simp
    | cons x rest =>
      cases rest with
      | nil =>
        rw [resolvable_of_singleton hsuppliers, value?_of_singleton hsuppliers]
        cases hconvert : a.kind.convert a.name x.2 with
        | ok value => simp [hconvert, Except.toOption]
        | error mismatch => simp [hconvert]
      | cons y rest =>
        constructor
        · intro h
          cases h
        · intro hres
          have hlength := hres.1.unambiguous
          rw [hsuppliers] at hlength
          simp at hlength

/-! ### Values -/

/-- Every value of an attribute comes of a conversion. -/
theorem exists_convert_of_value? {x : AttributeValue} (h : settings.value? headers a = some x) :
    ∃ v, a.kind.convert a.name v = .ok x := by
  rw [value?] at h
  split at h
  · obtain ⟨d, -, hconvert⟩ := Option.bind_eq_some_iff.mp h
    exact ⟨d.toValue, Except.toOption_eq_some_iff.mp hconvert⟩
  · exact ⟨_, Except.toOption_eq_some_iff.mp h⟩

theorem holds_of_value? {x : AttributeValue} (h : settings.value? headers a = some x) :
    a.kind.Holds x := by
  obtain ⟨v, hconvert⟩ := exists_convert_of_value? h
  exact AttributeKind.holds_of_convert hconvert

/-- A mandatory attribute that can be resolved has a value. -/
theorem exists_value?_of_mandatory (h : settings.spec a = .ok s)
    (hres : settings.Resolvable headers a) (hmandatory : a ∈ ContextAttribute.mandatory) :
    ∃ x, settings.value? headers a = some x := by
  obtain ⟨hdefault, hisSome⟩ := default_of_spec h
  cases hsuppliers : settings.suppliers a headers with
  | nil =>
    rw [value?_of_nil hsuppliers, ← hdefault, ← Option.isSome_iff_exists, hisSome]
    exact hres.supplied hmandatory hsuppliers
  | cons y rest =>
    obtain ⟨x, hx⟩ := hres.converted y (by rw [hsuppliers]; exact List.mem_cons_self)
    refine ⟨x, ?_⟩
    rw [value?, hsuppliers]
    exact Except.toOption_eq_some_iff.mpr hx

end CloudEnvelope.Settings
