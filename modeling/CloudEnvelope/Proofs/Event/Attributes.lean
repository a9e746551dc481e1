import CloudEnvelope.Proofs.Event.Builder
import CloudEnvelope.Proofs.Transformer.Construction

/-!
# Resolved attributes inside an event

`EventBuilder.attributes_of_build`: whatever specifications a builder is made of, the attributes
that it resolves are enough to build an event, and they are the attributes of the event, along with
its version.  A required attribute is never resolved to nothing (`AttributeSpec.isSome_of_resolve`),
so the mandatory attributes are there; and every attribute is resolved to a value of its kind
(`AttributeSpec.IsMade.holds_of_resolve`), so that the event takes it as it is.
-/

namespace CloudEnvelope

/-! ### Specifications -/

/-- An attribute is resolved to its default, which is there if the attribute is required, or else to
the conversion of a header value. -/
theorem Attribute.resolve_eq_ok {α : Type} {headers : Headers} {p : HeaderPattern}
    {default r : Option α} {convert : Text → Value → Except TypeMismatch α} {name : Text}
    {required : Bool} (h : resolve headers p default convert name required = .ok r) :
    (r = default ∧ (required = true → default.isSome)) ∨
      ∃ v x, convert name v = .ok x ∧ r = some x := by
  simp only [resolve] at h
  split at h
  · left
    split at h
    · cases h
    · rename_i hdefault
      cases h
      refine ⟨rfl, fun hrequired => ?_⟩
      simpa [hrequired, Option.isSome_iff_ne_none] using hdefault
  · right
    split at h
    · rename_i hconvert
      cases h
      exact ⟨_, _, hconvert, rfl⟩
    · cases h
  · cases h

namespace AttributeSpec

variable {s : AttributeSpec} {headers : Headers} {r : Option AttributeValue}

/-- The specification is made of a name, a kind, the token of a pattern and a default. -/
def IsMade (s : AttributeSpec) : Prop :=
  ∃ name kind token default required, make name kind token default required = .ok s

/-- What is resolved is the default, which is there if the attribute is required, or else the
conversion of a header value. -/
theorem resolve_eq_ok (h : s.resolve headers = .ok r) :
    (r = s.default ∧ (s.required = true → s.default.isSome)) ∨
      ∃ v x, s.kind.convert s.name v = .ok x ∧ r = some x := by
  rw [resolve] at h
  split at h
  · rename_i hpattern
    cases h
    refine .inl ⟨rfl, fun hrequired => (s.supplied hrequired).resolve_left ?_⟩
    rw [hpattern]
    exact Bool.false_ne_true
  · exact Attribute.resolve_eq_ok h

/-- A required attribute is never resolved to nothing. -/
theorem isSome_of_resolve (h : s.resolve headers = .ok r) (hrequired : s.required = true) :
    r.isSome := by
  rcases resolve_eq_ok h with ⟨rfl, hdefault⟩ | ⟨v, x, -, rfl⟩
  · exact hdefault hrequired
  · rfl

theorem holds_of_convertDefault {name : Text} {kind : AttributeKind} {v : Option Value}
    (h : convertDefault name kind v = .ok r) : ∀ x ∈ r, kind.Holds x := by
  rintro x ⟨⟩
  simp only [convertDefault] at h
  split at h
  · cases h
  · cases h
  · split at h
    · rename_i hconvert
      cases h
      exact AttributeKind.holds_of_convert hconvert
    · cases h

/-- The default of a specification has the form of its kind. -/
theorem IsMade.holds_default (h : s.IsMade) : ∀ x ∈ s.default, s.kind.Holds x := by
  obtain ⟨name, kind, token, default, required, hmake⟩ := h
  obtain ⟨-, hkind, -, hdefault, -⟩ := eq_of_make hmake
  rw [hkind]
  exact holds_of_convertDefault hdefault

/-- What is resolved has the form of the kind, whether it comes from a header or not. -/
theorem IsMade.holds_of_resolve (hmade : s.IsMade) (h : s.resolve headers = .ok r) :
    ∀ x ∈ r, s.kind.Holds x := by
  rcases resolve_eq_ok h with ⟨rfl, -⟩ | ⟨v, y, hconvert, rfl⟩
  · exact hmade.holds_default
  · rintro x ⟨⟩
    exact AttributeKind.holds_of_convert hconvert

end AttributeSpec

namespace EventBuilder

/-! ### Builders -/

variable {specs : List AttributeSpec} {b : EventBuilder} {headers : Headers}
  {attributes : OrderedMap Text Value} {a : ContextAttribute} {s : AttributeSpec}

/-- A specification that a builder holds is one of those that it is made of, and is of the kind of
its attribute. -/
theorem mem_of_ofSpecs (hb : ofSpecs specs = .ok b) (h : b.specs.get? a = some s) :
    s ∈ specs ∧ s.kind = a.kind := by
  simp only [ofSpecs, Except.bind_eq_ok_iff] at hb
  obtain ⟨named, hnamed, hb⟩ := hb
  -- Each entry that is written to the map satisfies this, so it does not matter which one is last.
  have hall : ∀ e ∈ named, e.2 ∈ specs ∧ e.2.kind = e.1.kind := by
    intro e he
    obtain ⟨s, hs, hpair⟩ := Except.exists_of_mem_of_mapM hnamed he
    obtain ⟨a, ha, ⟨⟩⟩ := Except.bind_eq_ok_iff.mp hpair
    rw [attributeOf] at ha
    split at ha
    · cases ha
    · split at ha
      · rename_i hkind
        cases ha
        exact ⟨hs, hkind⟩
      · cases ha
  split at hb
  · cases hb
    exact OrderedMap.forall_mem_ofList hall _ (OrderedMap.get?_eq_some_iff.mp h)
  · cases hb

/-- What an attribute is resolved to by the specification that the builder holds for it. -/
def value? (b : EventBuilder) (headers : Headers) (a : ContextAttribute) : Option AttributeValue :=
  (b.specs.get? a).bind fun s => (s.resolve headers).toOption.join

theorem value?_eq_some_iff {x : AttributeValue} :
    b.value? headers a = some x ↔
      ∃ s, b.specs.get? a = some s ∧ s.resolve headers = .ok (some x) := by
  simp only [value?, Option.bind_eq_some_iff, Option.join_eq_some_iff, Except.toOption_eq_some_iff]

/-- The specification of an attribute resolves it. -/
def Resolves (b : EventBuilder) (headers : Headers) (a : ContextAttribute) : Prop :=
  ∃ s, b.specs.get? a = some s ∧ ∃ r, s.resolve headers = .ok r

/-- Attributes are resolved exactly when the specification of each one resolves it, and then they
have these values. -/
theorem resolve_eq_ok_iff_resolves :
    b.resolve headers = .ok attributes ↔
      (∀ e ∈ b.specs.entries, b.Resolves headers e.1) ∧
        .ofList (entriesOf (b.value? headers) b.specs.keys) = attributes := by
  refine resolve_eq_ok_iff fun e he r => ?_
  have hget : b.specs.get? e.1 = some e.2 := OrderedMap.get?_eq_some_iff.mpr he
  rw [value?, Resolves, hget, Option.bind_some]
  constructor
  · intro h
    rw [h]
    exact ⟨⟨e.2, rfl, r, h⟩, rfl⟩
  · rintro ⟨⟨_, ⟨⟩, r', h⟩, hvalue⟩
    rw [h] at hvalue ⊢
    exact congrArg Except.ok hvalue

theorem mem_keys_of_value? (h : (b.value? headers a).isSome) : a ∈ b.specs.keys := by
  obtain ⟨x, hx⟩ := Option.isSome_iff_exists.mp h
  obtain ⟨s, hs, -⟩ := value?_eq_some_iff.mp hx
  exact OrderedMap.mem_keys_iff.mpr ⟨s, OrderedMap.get?_eq_some_iff.mp hs⟩

/-! ### Resolved attributes -/

/-- The resolved attributes are those that have a value, in the order of their specifications. -/
theorem entries_of_resolve (h : b.resolve headers = .ok attributes) :
    attributes.entries = entriesOf (b.value? headers) b.specs.keys := by
  obtain ⟨-, rfl⟩ := resolve_eq_ok_iff_resolves.mp h
  exact OrderedMap.entries_ofList (nodup_entriesOf _ b.specs.nodup)

/-- Each attribute is found under its name with the value that it is resolved to. -/
theorem get?_of_resolve (h : b.resolve headers = .ok attributes) (a : ContextAttribute) :
    attributes.get? a.name = (b.value? headers a).map AttributeValue.toValue := by
  obtain ⟨-, rfl⟩ := resolve_eq_ok_iff_resolves.mp h
  exact get?_entriesOf b.specs.nodup (fun a => mem_keys_of_value?) a

/-- The mandatory attributes are resolved to a value, because their specifications require one. -/
theorem isSome_value?_of_mandatory (h : b.resolve headers = .ok attributes)
    (ha : a ∈ ContextAttribute.mandatory) : (b.value? headers a).isSome := by
  obtain ⟨s, hs, hrequired⟩ := (Option.any_eq_true _ _).mp (b.complete a ha)
  have hmem : (a, s) ∈ b.specs.entries := OrderedMap.get?_eq_some_iff.mp hs
  obtain ⟨s', hs', r, hr⟩ := (resolve_eq_ok_iff_resolves.mp h).1 _ hmem
  obtain rfl : s = s' := Option.some.inj (hs.symm.trans hs')
  obtain ⟨x, rfl⟩ := Option.isSome_iff_exists.mp (AttributeSpec.isSome_of_resolve hr hrequired)
  exact Option.isSome_of_eq_some (value?_eq_some_iff.mpr ⟨s, hs, hr⟩)

/-- Once all attributes are resolved, the mandatory ones are there. -/
theorem exists_demand (h : b.resolve headers = .ok attributes) :
    ∀ a ∈ ContextAttribute.mandatory, ∃ v, demand attributes a = .ok v := by
  intro a ha
  obtain ⟨x, hx⟩ := Option.isSome_iff_exists.mp (isSome_value?_of_mandatory h ha)
  exact ⟨x.toValue, (demand_eq_ok_iff (get?_of_resolve h a)).mpr ⟨x, hx, rfl⟩⟩

/-- The values are of the kinds of their attributes. -/
theorem holds_of_value? (hmade : ∀ s ∈ specs, s.IsMade) (hb : ofSpecs specs = .ok b) :
    ∀ x ∈ b.value? headers a, a.kind.Holds x := by
  intro x hx
  obtain ⟨s, hs, hr⟩ := value?_eq_some_iff.mp hx
  obtain ⟨hmem, hkind⟩ := mem_of_ofSpecs hb hs
  rw [← hkind]
  exact (hmade s hmem).holds_of_resolve hr x rfl

/-! ### Events -/

/-- Any list of attributes with all that have a value gives the same entries, in its own order. -/
theorem perm_entriesOf {value : ContextAttribute → Option AttributeValue}
    {attributes : List ContextAttribute} (hnodup : attributes.Nodup)
    (hall : ∀ a, (value a).isSome → a ∈ attributes) :
    (entriesOf value ContextAttribute.all).Perm (entriesOf value attributes) := by
  refine (List.perm_ext_iff_of_nodup (nodup_entriesOf value (by decide)).of_map
    (nodup_entriesOf value hnodup).of_map).mpr fun entry => ?_
  rw [mem_entriesOf_iff, mem_entriesOf_iff]
  constructor
  · rintro ⟨a, -, x, hx, heq⟩
    exact ⟨a, hall a (Option.isSome_of_eq_some hx), x, hx, heq⟩
  · rintro ⟨a, -, x, hx, heq⟩
    exact ⟨a, a.mem_all, x, hx, heq⟩

theorem build_of_colliding {extensions : Headers} (h : colliding extensions ≠ [])
    (attributes : OrderedMap Text Value) (payload : Value) (room : Nat) :
    build attributes payload extensions room
      = .error (.configuration (.extensionCollides (colliding extensions))) := by
  rw [build, if_pos h]
  rfl

/-- An event is only built when no extension collides. -/
theorem colliding_of_build {payload : Value} {extensions : Headers} {room : Nat} {e : Event}
    (h : build attributes payload extensions room = .ok e) : colliding extensions = [] := by
  by_contra hcolliding
  rw [build_of_colliding hcolliding] at h
  cases h

/-- With the mandatory attributes at hand an event is never refused for want of one. -/
theorem build_ne_missingName {payload : Value} {extensions : Headers} {room : Nat}
    (h : ∀ a ∈ ContextAttribute.mandatory, ∃ v, demand attributes a = .ok v) (name : Text) :
    build attributes payload extensions room ≠ .error (.fault (.missingName name)) := by
  intro hmissing
  by_cases hfree : colliding extensions = []
  · obtain ⟨draft, hbuild⟩ := exists_draft_of_build payload room h hfree
    rw [hmissing] at hbuild
    split at hbuild
    · rename_i hfault
      cases hbuild
      exact absurd (Value.mem_faults_of_toData hfault) (by simp)
    · obtain ⟨problems, -, hfailure⟩ := Except.mapError_eq_error_iff.mp hbuild.symm
      cases hfailure
  · rw [build_of_colliding hfree] at hmissing
    cases hmissing

/-- The attributes that a builder resolves are enough for an event, and the event has them all,
unchanged, along with its version and no others. -/
theorem attributes_of_build (hmade : ∀ s ∈ specs, s.IsMade) (hb : ofSpecs specs = .ok b)
    (h : b.resolve headers = .ok attributes) (payload : Value) (extensions : Headers)
    (room : Nat) :
    (∀ name, build attributes payload extensions room ≠ .error (.fault (.missingName name))) ∧
      ∀ e, build attributes payload extensions room = .ok e → e.attributeMap.entries.Perm
        (("specversion", .text Event.currentVersion) :: attributes.entries) := by
  refine ⟨build_ne_missingName (exists_demand h), fun e he => ?_⟩
  have hbuilt : Built room (b.value? headers) payload extensions e :=
    (build_eq_ok_iff (get?_of_resolve h) (holds_of_value? hmade hb) (colliding_of_build he)).mp he
  have hvalues : e.attribute? = b.value? headers := funext hbuilt.attributes
  show (e.attributes.map fun x => ((x.1 : Text), x.2.toValue)).Perm _
  rw [Event.map_attributes, hbuilt.specversion, hvalues, entries_of_resolve h]
  exact (perm_entriesOf b.specs.nodup fun a => mem_keys_of_value?).cons _

/-- Specifications out of order: two of the type, of which the later one counts, and none of the
schema. -/
def overridden : Except ConfigurationIssue (List AttributeSpec) :=
  [("subject", .string, some "about", none, false),
    ("type", .string, none, some (.text "first"), true),
    ("time", .timestamp, some "at-*", some (.text "2024-02-29T12:00:00Z"), false),
    ("source", .uri, some "from", some (.text "urn:x"), true),
    ("id", .string, some "id", none, true),
    ("type", .string, some "kind", some (.text "second"), true)].mapM
    fun (name, kind, token, default, required) =>
      AttributeSpec.make name kind token default required

/-- Headers that supply the identity and the source, but no subject, time or type. -/
def sparseHeaders : Headers := ⟨[("from", .text "/a"), ("b", .null), ("id", .text "1")], by decide⟩

theorem attributes_of_build_overridden :
    ∃ specs b attributes e, overridden = .ok specs ∧ (∀ s ∈ specs, s.IsMade) ∧
      ofSpecs specs = .ok b ∧ b.resolve sparseHeaders = .ok attributes ∧
      build attributes (.int 7) .empty = .ok e ∧ e.type = "second" ∧
      attributes.keys = ["type", "time", "source", "id"] ∧
      e.attributeMap.entries.Perm
        (("specversion", .text Event.currentVersion) :: attributes.entries) := by
  have hok : overridden.toOption.any fun specs => (ofSpecs specs).toOption.any fun b =>
      (b.resolve sparseHeaders).toOption.any fun attributes =>
        (build attributes (.int 7) .empty).toOption.any fun e =>
          e.type = "second" ∧ attributes.keys = ["type", "time", "source", "id"] := by
    decide +kernel
  simp only [Option.any_eq_true, Except.toOption_eq_some_iff, decide_eq_true_eq] at hok
  obtain ⟨specs, hspecs, b, hb, attributes, hattributes, e, he, htype, hkeys⟩ := hok
  have hmade : ∀ s ∈ specs, s.IsMade := by
    intro s hs
    obtain ⟨_, -, hmake⟩ := Except.exists_of_mem_of_mapM hspecs hs
    exact ⟨_, _, _, _, _, hmake⟩
  exact ⟨specs, b, attributes, e, hspecs, hmade, hb, hattributes, he, htype, hkeys,
    (attributes_of_build hmade hb hattributes (.int 7) .empty _).2 e he⟩

end EventBuilder

end CloudEnvelope
