import CloudEnvelope.Proofs.Attribute.Value
import CloudEnvelope.Proofs.Classifier
import CloudEnvelope.Proofs.Except
import CloudEnvelope.Proofs.Pattern
import CloudEnvelope.Transformer

/-!
# What construction guarantees

`Transformer.make_eq_ok_iff` lists the checks that settings pass when a transformer is made of them.
The builder then has one specification for each attribute, with the pattern that the settings give
it (`Settings.forall₂_specs`), and a key that supplies an attribute is one that no extension pattern
accepts: it stays unclassified (`Transformer.Constructed.unclassified_of_supplies`).
-/

namespace CloudEnvelope

/-! ### Specifications -/

theorem AttributeSpec.eq_of_make {name : Text} {kind : AttributeKind} {token : Option Text}
    {default : Option Value} {required : Bool} {s : AttributeSpec}
    (h : make name kind token default required = .ok s) :
    s.name = name ∧ s.kind = kind ∧ parsePattern token = .ok s.pattern ∧
      convertDefault name kind default = .ok s.default ∧ s.required = required := by
  simp only [make, Except.bind_eq_ok_iff] at h
  obtain ⟨pattern, hpattern, default', hdefault, h⟩ := h
  split at h
  · cases h
    exact ⟨rfl, rfl, hpattern, hdefault, rfl⟩
  · cases h

/-- The attribute of the specification that settings make for it. -/
theorem EventBuilder.attributeOf_eq_ok {s : AttributeSpec} {a : ContextAttribute}
    (hname : s.name = a.name) (hkind : s.kind = a.kind) : attributeOf s = .ok a := by
  rw [attributeOf, hname, ContextAttribute.ofName?_name]
  exact if_pos hkind

namespace Settings

/-- An attribute and an entry of a builder that holds the specification of the attribute. -/
def Specifies (settings : Settings) (a : ContextAttribute) (e : ContextAttribute × AttributeSpec) :
    Prop :=
  e.1 = a ∧ settings.spec a = .ok e.2

variable {settings : Settings}

/-- The specifications of attributes are of these attributes. -/
theorem forall₂_named {attributes : List ContextAttribute} {specs : List AttributeSpec}
    {named : List (ContextAttribute × AttributeSpec)}
    (hspecs : List.Forall₂ (fun a s => settings.spec a = .ok s) attributes specs)
    (hnamed : (specs.mapM fun s => do return (← EventBuilder.attributeOf s, s)) = .ok named) :
    List.Forall₂ settings.Specifies attributes named := by
  rw [Except.mapM_eq_ok_iff] at hnamed
  induction hspecs generalizing named with
  | nil =>
    cases hnamed
    exact .nil
  | cons hspec _ ih =>
    obtain _ | ⟨he, hrest⟩ := hnamed
    obtain ⟨hname, hkind, -⟩ := AttributeSpec.eq_of_make hspec
    rw [EventBuilder.attributeOf_eq_ok hname hkind] at he
    cases he
    exact .cons ⟨rfl, hspec⟩ (ih hrest)

theorem map_fst_of_specifies {attributes : List ContextAttribute}
    {named : List (ContextAttribute × AttributeSpec)}
    (h : List.Forall₂ settings.Specifies attributes named) : named.map (·.1) = attributes := by
  induction h with
  | nil => rfl
  | cons he _ ih => rw [List.map_cons, ih, he.1]

/-- A builder that is made of settings has one specification for each attribute, in order. -/
theorem forall₂_specs {specs : List AttributeSpec} {b : EventBuilder}
    (hspecs : settings.specs = .ok specs) (hb : EventBuilder.ofSpecs specs = .ok b) :
    List.Forall₂ settings.Specifies ContextAttribute.all b.specs.entries := by
  rw [Settings.specs, Except.mapM_eq_ok_iff] at hspecs
  simp only [EventBuilder.ofSpecs, Except.bind_eq_ok_iff] at hb
  obtain ⟨named, hnamed, hb⟩ := hb
  have hall := forall₂_named hspecs hnamed
  -- No attribute comes twice, so the map of the builder keeps the list as it is.
  have hnodup : (named.map (·.1)).Nodup := by
    rw [map_fst_of_specifies hall]
    decide
  split at hb
  · cases hb
    show List.Forall₂ _ _ (OrderedMap.ofList named).entries
    rwa [OrderedMap.entries_ofList hnodup]
  · cases hb

theorem spec_of_specifies {attributes : List ContextAttribute}
    {named : List (ContextAttribute × AttributeSpec)}
    (h : List.Forall₂ settings.Specifies attributes named) {e : ContextAttribute × AttributeSpec}
    (he : e ∈ named) : settings.spec e.1 = .ok e.2 := by
  induction h with
  | nil => exact absurd he List.not_mem_nil
  | cons hspec _ ih =>
    rcases List.mem_cons.mp he with rfl | he
    · rw [hspec.1]
      exact hspec.2
    · exact ih he

/-- An entry of a builder holds the specification of its attribute. -/
theorem spec_of_mem {specs : List AttributeSpec} {b : EventBuilder}
    (hspecs : settings.specs = .ok specs) (hb : EventBuilder.ofSpecs specs = .ok b)
    {e : ContextAttribute × AttributeSpec} (he : e ∈ b.specs.entries) :
    settings.spec e.1 = .ok e.2 :=
  spec_of_specifies (forall₂_specs hspecs hb) he

/-- The key matches the pattern that the settings give an attribute. -/
def suppliesOne (settings : Settings) (a : ContextAttribute) (key : Text) : Bool :=
  (settings.patterns a).any fun token =>
    match HeaderPattern.parse token false with
    | .ok p => p.accepts key
    | .error _ => false

/-- The key matches the pattern of some attribute. -/
def supplies (settings : Settings) (key : Text) : Bool :=
  ContextAttribute.all.any fun a => settings.suppliesOne a key

/-- The pattern of a specification is the one that the settings give its attribute. -/
theorem any_accepts_of_spec {a : ContextAttribute} {s : AttributeSpec}
    (h : settings.spec a = .ok s) (key : Text) :
    s.pattern.any (·.accepts key) = settings.suppliesOne a key := by
  obtain ⟨-, -, hpattern, -⟩ := AttributeSpec.eq_of_make h
  rw [suppliesOne]
  cases htoken : settings.patterns a with
  | none =>
    rw [htoken] at hpattern
    obtain h : none = s.pattern := Except.ok.inj hpattern
    rw [← h]
    rfl
  | some token =>
    rw [htoken] at hpattern
    obtain ⟨p, hp, h⟩ := Except.map_eq_ok_iff.mp hpattern
    rw [← h]
    simp only [Option.any_some, hp]

/-- A key matches the pattern of some attribute exactly when a specification has a pattern that
accepts it. -/
theorem supplies_eq_any {specs : List AttributeSpec} {b : EventBuilder}
    (hspecs : settings.specs = .ok specs) (hb : EventBuilder.ofSpecs specs = .ok b) (key : Text) :
    settings.supplies key = b.specs.entries.any fun e => e.2.pattern.any (·.accepts key) := by
  have h := forall₂_specs hspecs hb
  rw [supplies]
  generalize ContextAttribute.all = attributes, b.specs.entries = entries at h
  induction h with
  | nil => rfl
  | cons he _ ih => rw [List.any_cons, List.any_cons, ih, any_accepts_of_spec he.2]

end Settings

/-! ### Checks -/

namespace Transformer

/-- What holds of a transformer that is made of settings and components. -/
structure Constructed (settings : Settings) (formats : List (Supplied EventFormat))
    (converter : Option (Supplied MessageConverter)) (t : Transformer) : Prop where
  strategy : Strategy.make formats converter = .ok t.strategy
  builder : ∃ specs, settings.specs = .ok specs ∧ EventBuilder.ofSpecs specs = .ok t.builder
  classifier : Classifier.ofTokens (settings.extensionPatterns.getD []) = .ok t.classifier
  default : t.strategy.checkDefault settings.defaultMediaType = .ok ()
  reserved : checkReserved t.classifier = .ok ()
  overlap : checkOverlap (t.builder.specs.entries.map (·.2)) t.classifier = .ok ()
  defaultMediaType : t.defaultMediaType = settings.defaultMediaType

theorem make_eq_ok_iff {settings : Settings} {formats : List (Supplied EventFormat)}
    {converter : Option (Supplied MessageConverter)} {t : Transformer} :
    make settings formats converter = .ok t ↔ Constructed settings formats converter t := by
  simp only [make, Except.bind_eq_ok_iff]
  constructor
  · rintro ⟨strategy, hstrategy, specs, hspecs, builder, hbuilder, classifier, hclassifier,
      ⟨⟩, hdefault, ⟨⟩, hreserved, ⟨⟩, hoverlap, ⟨⟩⟩
    exact ⟨hstrategy, ⟨specs, hspecs, hbuilder⟩, hclassifier, hdefault, hreserved, hoverlap, rfl⟩
  · rintro ⟨hstrategy, ⟨specs, hspecs, hbuilder⟩, hclassifier, hdefault, hreserved, hoverlap,
      hmedia⟩
    obtain ⟨builder, classifier, strategy, defaultMediaType⟩ := t
    cases hmedia
    exact ⟨strategy, hstrategy, specs, hspecs, builder, hbuilder, classifier, hclassifier,
      (), hdefault, (), hreserved, (), hoverlap, rfl⟩

/-- The check passes when no specification has a pattern that overlaps one of the classifier. -/
theorem checkOverlap_eq_ok_iff {specs : List AttributeSpec} {c : Classifier} :
    checkOverlap specs c = .ok () ↔
      ∀ s ∈ specs, ∀ p ∈ s.pattern, ∀ q ∈ c.patterns, ¬p.overlaps q := by
  have hnil : overlapping specs c = [] ↔
      ∀ s ∈ specs, ∀ p ∈ s.pattern, ∀ q ∈ c.patterns, ¬p.overlaps q := by
    simp [overlapping, List.flatMap_eq_nil_iff]
  rw [← hnil, checkOverlap]
  split
  · rename_i h
    simp [h]
  · rename_i h
    simp [h]

namespace Constructed

variable {settings : Settings} {formats : List (Supplied EventFormat)} {t : Transformer}

/-- The strategy of a transformer that is made of formats alone. -/
theorem exists_registry (h : Constructed settings formats none t) :
    ∃ registry, t.strategy = .formats registry := by
  have hstrategy := h.strategy
  cases formats with
  | nil => cases hstrategy
  | cons f rest =>
    obtain ⟨registry, -, hregistry⟩ := Except.map_eq_ok_iff.mp hstrategy
    exact ⟨registry, hregistry.symm⟩

/-- Every attribute has a specification. -/
theorem exists_spec {converter : Option (Supplied MessageConverter)}
    (h : Constructed settings formats converter t) (a : ContextAttribute) :
    ∃ s, (a, s) ∈ t.builder.specs.entries ∧ settings.spec a = .ok s := by
  obtain ⟨specs, hspecs, hb⟩ := h.builder
  have hmem : a ∈ t.builder.specs.entries.map (·.1) := by
    rw [Settings.map_fst_of_specifies (Settings.forall₂_specs hspecs hb)]
    exact a.mem_all
  obtain ⟨⟨a', s⟩, he, rfl⟩ := List.mem_map.mp hmem
  exact ⟨s, he, Settings.spec_of_mem hspecs hb he⟩

/-- A key that supplies an attribute is accepted by no pattern of the classifier. -/
theorem unclassified_of_supplies {converter : Option (Supplied MessageConverter)}
    (h : Constructed settings formats converter t) {key : Text} (hkey : settings.supplies key) :
    t.classifier.outcome key = .unclassified := by
  obtain ⟨specs, hspecs, hbuilder⟩ := h.builder
  rw [Settings.supplies_eq_any hspecs hbuilder, List.any_eq_true] at hkey
  obtain ⟨e, he, hkey⟩ := hkey
  obtain ⟨p, hp, hpkey⟩ := (Option.any_eq_true _ _).mp hkey
  rw [Classifier.outcome_eq_unclassified_iff]
  intro q hq hqkey
  exact checkOverlap_eq_ok_iff.mp h.overlap e.2 (List.mem_map.mpr ⟨e, he, rfl⟩) p hp q hq
    (HeaderPattern.overlaps_of_accepts hpkey hqkey)

end Constructed

end Transformer

end CloudEnvelope
