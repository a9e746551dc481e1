import CloudEnvelope.Proofs.Attribute.Specification
import CloudEnvelope.Proofs.Format.Registry
import CloudEnvelope.Proofs.Transformer.Construction

/-!
# Which configurations make a transformer

`Transformer.exists_make_iff_sound`: settings, formats and a converter make a transformer exactly
when they are sound (`Transformer.Sound`), and what is refused is refused for a mistake in the
configuration.  Soundness speaks of tokens and keys: where construction looks for overlaps of
patterns, it asks that no key at all satisfies both a pattern of an attribute and a token of the
extensions, and where construction classifies the reserved names, it asks for the first token whose
body a name satisfies.
-/

namespace CloudEnvelope

/-! ### Strategies -/

namespace Strategy

variable {formats : List (Supplied EventFormat)} {converter : Option (Supplied MessageConverter)}

/-- The strategy of a converter alone, or of formats alone. -/
theorem make_eq_ok_iff {s : Strategy} :
    make formats converter = .ok s ↔
      (formats = [] ∧ ∃ k, converter = some (.component k) ∧ s = .converter k) ∨
      (formats ≠ [] ∧ converter = none ∧
        ∃ r, FormatRegistry.ofList formats = .ok r ∧ s = .formats r) := by
  unfold make
  split
  · simp
  · simp
  · simp
  · simp [eq_comm]
  · rw [Except.map_eq_ok_iff]
    simp [eq_comm]

/-- There is a strategy exactly when there are formats or a converter and not both, the converter
is one, and the formats are formats of different media types. -/
theorem exists_make_iff :
    (∃ s, make formats converter = .ok s) ↔
      (formats ≠ [] ↔ converter = none) ∧ (∀ c ∈ converter, ∃ k, c = .component k) ∧
        ∃ fs : List EventFormat, formats = fs.map .component ∧ (fs.map EventFormat.key).Nodup := by
  simp only [make_eq_ok_iff]
  constructor
  · rintro ⟨s, ⟨rfl, k, rfl, -⟩ | ⟨hne, rfl, r, hr, -⟩⟩
    · exact ⟨by simp, by simp, [], rfl, List.nodup_nil⟩
    · obtain ⟨fs, hfs, hnodup, -⟩ := FormatRegistry.ofList_eq_ok_iff.mp hr
      exact ⟨by simp [hne], by simp, fs, hfs, hnodup⟩
  · rintro ⟨hone, hconverter, fs, hfs, hnodup⟩
    cases converter with
    | none =>
      -- Formats alone make a registry, in which none takes the place of another.
      have hentries : (OrderedMap.ofList (fs.map EventFormat.entry)).entries
          = fs.map EventFormat.entry :=
        OrderedMap.entries_ofList (by rwa [EventFormat.map_fst_entry])
      have hr : FormatRegistry.ofList formats =
          .ok ⟨OrderedMap.ofList (fs.map EventFormat.entry)⟩ :=
        FormatRegistry.ofList_eq_ok_iff.mpr ⟨fs, hfs, hnodup, hentries⟩
      exact ⟨_, .inr ⟨hone.mpr rfl, rfl, _, hr, rfl⟩⟩
    | some c =>
      obtain ⟨k, rfl⟩ := hconverter c rfl
      have hnil : formats = [] := by simpa using hone
      exact ⟨_, .inl ⟨hnil, k, rfl, rfl⟩⟩

/-- A default media type is accepted exactly when one of the formats serves it. -/
theorem checkDefault_eq_ok_iff {s : Strategy} (h : make formats converter = .ok s)
    {mediaType : Option Text} :
    s.checkDefault mediaType = .ok () ↔
      ∀ m ∈ mediaType, ∃ f, .component f ∈ formats ∧ f.Serves m := by
  cases mediaType with
  | none => simp [checkDefault]
  | some m =>
    rcases make_eq_ok_iff.mp h with ⟨rfl, k, -, rfl⟩ | ⟨-, -, r, hr, rfl⟩
    · simp [checkDefault]
    · obtain ⟨fs, rfl, -, hentries⟩ := FormatRegistry.ofList_eq_ok_iff.mp hr
      have hhas : r.has m ↔ ∃ f ∈ fs, f.Serves m := FormatRegistry.has_iff hentries
      rw [checkDefault]
      split
      · rename_i hserved
        obtain ⟨f, hf, hserves⟩ := hhas.mp hserved
        simp only [Option.mem_some_iff, forall_eq', true_iff]
        exact ⟨f, List.mem_map_of_mem hf, hserves⟩
      · rename_i hunserved
        simp only [Option.mem_some_iff, forall_eq', reduceCtorEq, false_iff]
        rintro ⟨f, hf, hserves⟩
        obtain ⟨f', hf', ⟨⟩⟩ := List.mem_map.mp hf
        exact hunserved (hhas.mpr ⟨f, hf', hserves⟩)

end Strategy

/-! ### Patterns of extensions -/

/-- The tokens of extensions. -/
def Settings.extensionTokens (settings : Settings) : List Text :=
  settings.extensionPatterns.getD []

namespace Classifier

theorem exists_ofTokens_iff {tokens : List Text} :
    (∃ c, ofTokens tokens = .ok c) ↔ ∀ token ∈ tokens, ∃ p, HeaderPattern.parse token = .ok p := by
  rw [← Except.exists_mapM_iff]
  simp only [ofTokens_eq_ok_iff, Except.mapM_eq_ok_iff]
  exact ⟨fun ⟨c, h⟩ => ⟨c.patterns, h⟩, fun ⟨ps, h⟩ => ⟨⟨ps⟩, h⟩⟩

/-- A key is accepted by some pattern exactly when it satisfies the body of some token. -/
theorem any_accepts {tokens : List Text} {c : Classifier} (h : ofTokens tokens = .ok c)
    (key : Text) :
    c.patterns.any (·.accepts key) = tokens.any (HeaderPattern.tokenAccepts · key) := by
  rw [ofTokens_eq_ok_iff] at h
  generalize c.patterns = ps at h
  induction h with
  | nil => rfl
  | cons hp _ ih => rw [List.any_cons, List.any_cons, ih, HeaderPattern.tokenAccepts_of_parse hp]

end Classifier

namespace Transformer

/-- No reserved name is promoted by the first token whose body it satisfies. -/
theorem checkReserved_eq_ok_iff {tokens : List Text} {c : Classifier}
    (h : Classifier.ofTokens tokens = .ok c) :
    checkReserved c = .ok () ↔
      ∀ name ∈ Event.forbiddenNames, ∀ token,
        tokens.find? (HeaderPattern.tokenAccepts · (name : Text)) = some token →
          HeaderPattern.tokenNegates token := by
  have hnil : checkReserved c = .ok () ↔ promotedNames c = [] := by
    rw [checkReserved]
    split
    · rename_i h
      simp [h]
    · rename_i h
      simp [h]
  rw [hnil, promotedNames, List.filter_eq_nil_iff, List.forall_mem_map]
  simp only [decide_eq_true_eq, Classifier.outcome_eq_promoted_iff h, not_exists, not_and, not_not]

/-- No key satisfies both a pattern of an attribute and the body of a token. -/
theorem checkOverlap_eq_ok_iff_disjoint {settings : Settings} {specs : List AttributeSpec}
    {b : EventBuilder} {tokens : List Text} {c : Classifier} (hspecs : settings.specs = .ok specs)
    (hb : EventBuilder.ofSpecs specs = .ok b) (hc : Classifier.ofTokens tokens = .ok c) :
    checkOverlap (b.specs.entries.map (·.2)) c = .ok () ↔
      ∀ key, settings.supplies key → ∀ token ∈ tokens, ¬HeaderPattern.tokenAccepts token key := by
  have hsupplies : ∀ key, settings.supplies key ↔
      ∃ s ∈ b.specs.entries.map (·.2), ∃ p ∈ s.pattern, p.accepts key := by
    intro key
    rw [Settings.supplies_eq_any hspecs hb, List.any_eq_true]
    constructor
    · rintro ⟨e, he, hkey⟩
      exact ⟨e.2, List.mem_map_of_mem he, (Option.any_eq_true _ _).mp hkey⟩
    · rintro ⟨_, hs, hkey⟩
      obtain ⟨e, he, rfl⟩ := List.mem_map.mp hs
      exact ⟨e, he, (Option.any_eq_true _ _).mpr hkey⟩
  have htokens : ∀ key, (∀ token ∈ tokens, ¬HeaderPattern.tokenAccepts token key) ↔
      ∀ q ∈ c.patterns, ¬q.accepts key := by
    intro key
    rw [← List.any_eq_false, ← List.any_eq_false, Classifier.any_accepts hc]
  rw [checkOverlap_eq_ok_iff]
  simp only [HeaderPattern.overlaps_iff, htokens, hsupplies]
  -- Both sides speak of one key now: patterns overlap when they share one.
  constructor
  · rintro h key ⟨s, hs, p, hp, hpkey⟩ q hq hqkey
    exact h s hs p hp q hq ⟨key, hpkey, hqkey⟩
  · rintro h s hs p hp q hq ⟨key, hpkey, hqkey⟩
    exact h key ⟨s, hs, p, hp, hpkey⟩ q hq hqkey

/-! ### Soundness -/

/-- What a configuration has to be for a transformer to be made of it. -/
structure Sound (settings : Settings) (formats : List (Supplied EventFormat))
    (converter : Option (Supplied MessageConverter)) : Prop where
  /-- There are formats or a converter, and not both. -/
  oneStrategy : formats ≠ [] ↔ converter = none
  isConverter : ∀ c ∈ converter, ∃ k, c = .component k
  /-- The formats are formats, and no two of them declare the same media type. -/
  areFormats : ∃ fs : List EventFormat,
    formats = fs.map .component ∧ (fs.map EventFormat.key).Nodup
  attributes : ∀ a, settings.Specifiable a
  extensions : ∀ token ∈ settings.extensionTokens, ∃ p, HeaderPattern.parse token = .ok p
  default : ∀ m ∈ settings.defaultMediaType, ∃ f, .component f ∈ formats ∧ f.Serves m
  /-- The first token whose body a reserved name satisfies is negated. -/
  reserved : ∀ name ∈ Event.forbiddenNames, ∀ token,
    settings.extensionTokens.find? (HeaderPattern.tokenAccepts · (name : Text)) = some token →
      HeaderPattern.tokenNegates token
  /-- No key satisfies both a pattern of an attribute and the body of a token. -/
  disjoint : ∀ key, settings.supplies key → ∀ token ∈ settings.extensionTokens,
    ¬HeaderPattern.tokenAccepts token key

variable {settings : Settings} {formats : List (Supplied EventFormat)}
  {converter : Option (Supplied MessageConverter)}

theorem sound_of_constructed {t : Transformer} (h : Constructed settings formats converter t) :
    Sound settings formats converter := by
  obtain ⟨specs, hspecs, hb⟩ := h.builder
  have hclassifier : Classifier.ofTokens settings.extensionTokens = .ok t.classifier :=
    h.classifier
  obtain ⟨hone, hconverter, hformats⟩ := Strategy.exists_make_iff.mp ⟨t.strategy, h.strategy⟩
  exact {
    oneStrategy := hone
    isConverter := hconverter
    areFormats := hformats
    attributes := Settings.exists_builder_iff.mp ⟨specs, t.builder, hspecs, hb⟩
    extensions := Classifier.exists_ofTokens_iff.mp ⟨t.classifier, hclassifier⟩
    default := (Strategy.checkDefault_eq_ok_iff h.strategy).mp h.default
    reserved := (checkReserved_eq_ok_iff hclassifier).mp h.reserved
    disjoint := (checkOverlap_eq_ok_iff_disjoint hspecs hb hclassifier).mp h.overlap }

theorem Sound.exists_constructed (h : Sound settings formats converter) :
    ∃ t, Constructed settings formats converter t := by
  obtain ⟨strategy, hstrategy⟩ :=
    Strategy.exists_make_iff.mpr ⟨h.oneStrategy, h.isConverter, h.areFormats⟩
  obtain ⟨specs, b, hspecs, hb⟩ := Settings.exists_builder_iff.mpr h.attributes
  obtain ⟨c, hc⟩ := Classifier.exists_ofTokens_iff.mpr h.extensions
  refine ⟨⟨b, c, strategy, settings.defaultMediaType⟩, ?_⟩
  exact {
    strategy := hstrategy
    builder := ⟨specs, hspecs, hb⟩
    classifier := hc
    default := (Strategy.checkDefault_eq_ok_iff hstrategy).mpr h.default
    reserved := (checkReserved_eq_ok_iff hc).mpr h.reserved
    overlap := (checkOverlap_eq_ok_iff_disjoint hspecs hb hc).mpr h.disjoint
    defaultMediaType := rfl }

end Transformer

/-! ### Mistakes -/

/-- The mistakes that construction reports.  The others are those of components that are made on
their own, and of the reading of settings. -/
def ConfigurationIssue.OfConstruction : ConfigurationIssue → Prop
  | patternNotText _ => False
  | unknownAttribute _ => False
  | wrongKind _ _ _ => False
  | notRequired _ => False
  | extensionCollides _ => False
  | invalidSettings _ => False
  | _ => True

section

variable {issue : ConfigurationIssue}

theorem Body.ofConstruction_of_parse {token body : Text} (h : parse token body = .error issue) :
    issue.OfConstruction := by
  unfold parse at h
  -- The checks are on the fragment, whatever the wildcards leave of the body.
  extract_lets star at h
  split at h
  · cases h
    trivial
  split at h
  · cases h
  split at h
  · cases h
    trivial
  split at h
  · cases h
    trivial
  · cases h

theorem HeaderPattern.ofConstruction_of_parse {token : Text} {allowNegation : Bool}
    (h : parse token allowNegation = .error issue) : issue.OfConstruction := by
  unfold parse at h
  split at h
  · split at h
    · rcases Except.bind_eq_error_iff.mp h with h | ⟨_, -, ⟨⟩⟩
      exact Body.ofConstruction_of_parse h
    · cases h
      trivial
  · rcases Except.bind_eq_error_iff.mp h with h | ⟨_, -, ⟨⟩⟩
    exact Body.ofConstruction_of_parse h

theorem AttributeSpec.ofConstruction_of_make {name : Text} {kind : AttributeKind}
    {token : Option Text} {default : Option Value} {required : Bool}
    (h : make name kind token default required = .error issue) : issue.OfConstruction := by
  rcases Except.bind_eq_error_iff.mp h with h | ⟨_, -, h⟩
  · cases token with
    | none => cases h
    | some token => exact HeaderPattern.ofConstruction_of_parse (Except.map_eq_error_iff.mp h)
  · rcases Except.bind_eq_error_iff.mp h with h | ⟨_, -, h⟩
    · unfold convertDefault at h
      split at h
      · cases h
      · cases h
      · split at h
        · cases h
        · cases h
          trivial
    · split at h
      · cases h
      · cases h
        trivial

theorem FormatRegistry.ofConstruction_of_register {r : FormatRegistry}
    {f : Supplied EventFormat} (h : r.register f = .error issue) : issue.OfConstruction := by
  cases f with
  | foreign typeName =>
    cases h
    trivial
  | component f =>
    simp only [register] at h
    split at h
    · cases h
      trivial
    · cases h

theorem FormatRegistry.ofConstruction_of_foldlM {formats : List (Supplied EventFormat)}
    {r : FormatRegistry} (h : formats.foldlM register r = .error issue) :
    issue.OfConstruction := by
  induction formats generalizing r with
  | nil => cases h
  | cons f rest ih =>
    rw [List.foldlM_cons] at h
    rcases Except.bind_eq_error_iff.mp h with h | ⟨r', -, h⟩
    · exact ofConstruction_of_register h
    · exact ih h

theorem Strategy.ofConstruction_of_make {formats : List (Supplied EventFormat)}
    {converter : Option (Supplied MessageConverter)} (h : make formats converter = .error issue) :
    issue.OfConstruction := by
  unfold make at h
  split at h
  · cases h
    trivial
  · cases h
    trivial
  · cases h
    trivial
  · cases h
  · exact FormatRegistry.ofConstruction_of_foldlM (Except.map_eq_error_iff.mp h)

theorem Strategy.ofConstruction_of_checkDefault {s : Strategy} {mediaType : Option Text}
    (h : s.checkDefault mediaType = .error issue) : issue.OfConstruction := by
  unfold checkDefault at h
  split at h
  · cases h
  · split at h
    · cases h
      trivial
    · split at h
      · cases h
      · cases h
        trivial

namespace Transformer

theorem ofConstruction_of_checkReserved {c : Classifier} (h : checkReserved c = .error issue) :
    issue.OfConstruction := by
  rw [checkReserved] at h
  split at h
  · cases h
  · cases h
    trivial

theorem ofConstruction_of_checkOverlap {specs : List AttributeSpec} {c : Classifier}
    (h : checkOverlap specs c = .error issue) : issue.OfConstruction := by
  rw [checkOverlap] at h
  split at h
  · cases h
  · cases h
    trivial

/-- What construction refuses, it refuses for a mistake in the configuration: the builder has
nothing of its own to object to specifications that settings make. -/
theorem ofConstruction_of_make {settings : Settings} {formats : List (Supplied EventFormat)}
    {converter : Option (Supplied MessageConverter)}
    (h : make settings formats converter = .error issue) : issue.OfConstruction := by
  rcases Except.bind_eq_error_iff.mp h with h | ⟨strategy, -, h⟩
  · exact Strategy.ofConstruction_of_make h
  rcases Except.bind_eq_error_iff.mp h with h | ⟨specs, hspecs, h⟩
  · obtain ⟨a, -, h⟩ := Except.exists_of_mapM_eq_error h
    exact AttributeSpec.ofConstruction_of_make h
  rcases Except.bind_eq_error_iff.mp h with h | ⟨builder, -, h⟩
  · obtain ⟨b, hb⟩ := Settings.exists_ofSpecs hspecs
    rw [hb] at h
    cases h
  rcases Except.bind_eq_error_iff.mp h with h | ⟨classifier, -, h⟩
  · rcases Except.bind_eq_error_iff.mp h with h | ⟨_, -, ⟨⟩⟩
    obtain ⟨token, -, h⟩ := Except.exists_of_mapM_eq_error h
    exact HeaderPattern.ofConstruction_of_parse h
  rcases Except.bind_eq_error_iff.mp h with h | ⟨_, -, h⟩
  · exact Strategy.ofConstruction_of_checkDefault h
  rcases Except.bind_eq_error_iff.mp h with h | ⟨_, -, h⟩
  · exact ofConstruction_of_checkReserved h
  rcases Except.bind_eq_error_iff.mp h with h | ⟨_, -, ⟨⟩⟩
  exact ofConstruction_of_checkOverlap h

/-- A transformer is made exactly of a sound configuration, and any other is refused for a
mistake. -/
theorem exists_make_iff_sound (settings : Settings) (formats : List (Supplied EventFormat))
    (converter : Option (Supplied MessageConverter)) :
    ((∃ t, make settings formats converter = .ok t) ↔ Sound settings formats converter) ∧
      (¬Sound settings formats converter →
        ∃ issue, make settings formats converter = .error issue ∧ issue.OfConstruction) := by
  have hiff : (∃ t, make settings formats converter = .ok t) ↔
      Sound settings formats converter := by
    simp only [make_eq_ok_iff]
    exact ⟨fun ⟨_, h⟩ => sound_of_constructed h, Sound.exists_constructed⟩
  refine ⟨hiff, fun hunsound => ?_⟩
  cases hmake : make settings formats converter with
  | ok t => exact absurd (hiff.mp ⟨t, hmake⟩) hunsound
  | error issue => exact ⟨issue, rfl, ofConstruction_of_make hmake⟩

end Transformer

end

end CloudEnvelope
