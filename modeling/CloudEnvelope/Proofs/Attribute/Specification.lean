import CloudEnvelope.Proofs.Attribute.Resolution

/-!
# Which settings can be specified

`Settings.exists_spec_iff`: settings make a specification of an attribute exactly when its pattern
is a token without negation, its default can be converted, and it has one of the two if it is
mandatory (`Settings.Specifiable`).  When they do so for every attribute, there is a builder of the
specifications (`Settings.exists_builder_iff`): the checks that a builder makes on its own have
nothing to object.
-/

namespace CloudEnvelope

/-! ### One attribute -/

theorem AttributeSpec.exists_make_iff {name : Text} {kind : AttributeKind} {token : Option Text}
    {default : Option Value} {required : Bool} :
    (∃ s, make name kind token default required = .ok s) ↔
      ∃ pattern, parsePattern token = .ok pattern ∧
        ∃ value, convertDefault name kind default = .ok value ∧
          (required = true → pattern.isSome ∨ value.isSome) := by
  simp only [make, Except.bind_eq_ok_iff]
  constructor
  · rintro ⟨s, pattern, hpattern, value, hvalue, h⟩
    split at h
    · rename_i hsupplied
      exact ⟨pattern, hpattern, value, hvalue, hsupplied⟩
    · cases h
  · rintro ⟨pattern, hpattern, value, hvalue, hsupplied⟩
    exact ⟨_, pattern, hpattern, value, hvalue, dif_pos hsupplied⟩

theorem AttributeSpec.exists_parsePattern_iff {token : Option Text} :
    (∃ pattern, parsePattern token = .ok pattern) ↔
      ∀ t ∈ token, ∃ p, HeaderPattern.parse t false = .ok p := by
  cases token with
  | none => simp [parsePattern]
  | some t => simp [parsePattern, Except.map_eq_ok_iff]

/-- There is a pattern exactly when there is a token. -/
theorem AttributeSpec.isSome_of_parsePattern {token : Option Text} {pattern : Option HeaderPattern}
    (h : parsePattern token = .ok pattern) : pattern.isSome = token.isSome := by
  cases token with
  | none =>
    cases h
    rfl
  | some t =>
    obtain ⟨p, -, rfl⟩ := Except.map_eq_ok_iff.mp h
    rfl

namespace Settings

/-- What an attribute needs in order to be specified. -/
structure Specifiable (settings : Settings) (a : ContextAttribute) : Prop where
  pattern : ∀ token ∈ settings.patterns a, ∃ p, HeaderPattern.parse token false = .ok p
  default : ∀ d ∈ settings.defaults a, ∃ value, a.kind.convert a.name d.toValue = .ok value
  supplied : a ∈ ContextAttribute.mandatory →
    (settings.patterns a).isSome ∨ (settings.defaults a).isSome

variable {settings : Settings} {a : ContextAttribute}

theorem exists_convertDefault_iff {name : Text} {kind : AttributeKind}
    {default : Option DefaultSetting} :
    (∃ value, AttributeSpec.convertDefault name kind (default.map DefaultSetting.toValue)
      = .ok value) ↔ ∀ d ∈ default, ∃ value, kind.convert name d.toValue = .ok value := by
  cases default with
  | none => simp [AttributeSpec.convertDefault]
  | some d =>
    simp [convertDefault_of_ne_null (toValue_ne_null d), Except.mapError_eq_ok_iff,
      Except.map_eq_ok_iff]

/-- There is a converted default exactly when there is a default. -/
theorem isSome_of_convertDefault {name : Text} {kind : AttributeKind}
    {default : Option DefaultSetting} {value : Option AttributeValue}
    (h : AttributeSpec.convertDefault name kind (default.map DefaultSetting.toValue) = .ok value) :
    value.isSome = default.isSome := by
  cases default with
  | none =>
    cases h
    rfl
  | some d =>
    obtain ⟨_, -, rfl⟩ := exists_convert_of_convertDefault h
    rfl

/-- Settings specify an attribute exactly when it has what it needs. -/
theorem exists_spec_iff : (∃ s, settings.spec a = .ok s) ↔ settings.Specifiable a := by
  rw [spec, AttributeSpec.exists_make_iff]
  constructor
  · rintro ⟨pattern, hpattern, value, hvalue, hsupplied⟩
    refine ⟨AttributeSpec.exists_parsePattern_iff.mp ⟨pattern, hpattern⟩,
      exists_convertDefault_iff.mp ⟨value, hvalue⟩, fun hmandatory => ?_⟩
    rw [← AttributeSpec.isSome_of_parsePattern hpattern, ← isSome_of_convertDefault hvalue]
    exact hsupplied (List.contains_iff_mem.mpr hmandatory)
  · rintro ⟨hpattern, hdefault, hsupplied⟩
    obtain ⟨pattern, hpattern⟩ := AttributeSpec.exists_parsePattern_iff.mpr hpattern
    obtain ⟨value, hvalue⟩ := exists_convertDefault_iff.mpr hdefault
    refine ⟨pattern, hpattern, value, hvalue, fun hrequired => ?_⟩
    rw [AttributeSpec.isSome_of_parsePattern hpattern, isSome_of_convertDefault hvalue]
    exact hsupplied (List.contains_iff_mem.mp hrequired)

/-! ### All attributes -/

theorem exists_specs_iff :
    (∃ specs, settings.specs = .ok specs) ↔ ∀ a, settings.Specifiable a := by
  rw [specs, Except.exists_mapM_iff]
  simp only [exists_spec_iff]
  exact ⟨fun h a => h a a.mem_all, fun h a _ => h a⟩

/-- Every list of specifications that settings make has a builder. -/
theorem exists_ofSpecs {specs : List AttributeSpec} (h : settings.specs = .ok specs) :
    ∃ b, EventBuilder.ofSpecs specs = .ok b := by
  -- Each specification is of an attribute and of its kind.
  have hnamed : ∃ named,
      (specs.mapM fun s => do return (← EventBuilder.attributeOf s, s)) = .ok named := by
    rw [Except.exists_mapM_iff]
    intro s hs
    obtain ⟨a, -, hspec⟩ := Except.exists_of_mem_of_mapM h hs
    obtain ⟨hname, hkind, -⟩ := AttributeSpec.eq_of_make hspec
    rw [EventBuilder.attributeOf_eq_ok hname hkind]
    exact ⟨_, rfl⟩
  obtain ⟨named, hnamed⟩ := hnamed
  rw [Settings.specs, Except.mapM_eq_ok_iff] at h
  have hall := forall₂_named h hnamed
  have hfst := map_fst_of_specifies hall
  have hentries : (OrderedMap.ofList named).entries = named := by
    refine OrderedMap.entries_ofList ?_
    rw [hfst]
    decide
  -- The specification of a mandatory attribute requires it.
  have hrequired : EventBuilder.unrequired (OrderedMap.ofList named) = [] := by
    rw [EventBuilder.unrequired, List.filter_eq_nil_iff]
    intro a ha
    have hmem : a ∈ named.map (·.1) := by
      rw [hfst]
      exact a.mem_all
    obtain ⟨⟨a, s⟩, he, rfl⟩ := List.mem_map.mp hmem
    have hget : (OrderedMap.ofList named).get? a = some s := by
      rwa [OrderedMap.get?_eq_some_iff, hentries]
    have hreq : s.required = true := (required_of_spec (spec_of_specifies hall he)).mpr ha
    simp [hget, hreq]
  rw [EventBuilder.ofSpecs, hnamed]
  exact ⟨_, dif_pos hrequired⟩

/-- There is a builder exactly when every attribute can be specified. -/
theorem exists_builder_iff :
    (∃ specs b, settings.specs = .ok specs ∧ EventBuilder.ofSpecs specs = .ok b) ↔
      ∀ a, settings.Specifiable a := by
  rw [← exists_specs_iff]
  constructor
  · rintro ⟨specs, _, hspecs, -⟩
    exact ⟨specs, hspecs⟩
  · rintro ⟨specs, hspecs⟩
    obtain ⟨b, hb⟩ := exists_ofSpecs hspecs
    exact ⟨specs, b, hspecs, hb⟩

end Settings

end CloudEnvelope
