import CloudEnvelope.Proofs.Event.Validation
import CloudEnvelope.Proofs.Transformer.Construction

/-!
# Headers through a transformation

A transformer that writes formats gives each header one of three fates, which the outcome of its key
decides (`Transformer.transform_conserves`), and its result depends on no header but those that
supply attributes or become extensions, the headers that pass through aside
(`Transformer.transform_noninterference`).
-/

namespace CloudEnvelope

/-- A condition that implies another selects the same from lists of which the other does. -/
theorem filter_eq_of_filter_eq {α : Type} {keep p : α → Bool} {xs ys : List α}
    (hkeep : ∀ a, p a → keep a) (h : xs.filter keep = ys.filter keep) :
    xs.filter p = ys.filter p := by
  have hfilter : ∀ zs : List α, (zs.filter keep).filter p = zs.filter p := by
    intro zs
    rw [List.filter_filter]
    refine List.filter_congr fun a _ => ?_
    cases hp : p a
    · rfl
    · rw [hkeep a hp]
      rfl
  rw [← hfilter xs, h, hfilter]

/-! ### Resolution -/

/-- The headers agree in the entries whose keys satisfy a condition. -/
def AgreeOn (keep : Text → Bool) (headers headers' : Headers) : Prop :=
  (headers.entries.filter fun e => keep e.1) = headers'.entries.filter fun e => keep e.1

variable {keep : Text → Bool} {headers headers' : Headers}

/-- The resolution of an attribute looks at the headers alone that its pattern accepts. -/
theorem AttributeSpec.resolve_congr {s : AttributeSpec}
    (hkeep : ∀ key, s.pattern.any (·.accepts key) → keep key) (h : AgreeOn keep headers headers') :
    s.resolve headers = s.resolve headers' := by
  rw [resolve, resolve]
  cases hp : s.pattern with
  | none => rfl
  | some p =>
    have hcandidates : Attribute.candidates headers p = Attribute.candidates headers' p := by
      refine filter_eq_of_filter_eq (fun e he => ?_) h
      exact hkeep e.1 (by rwa [hp])
    simp only [Attribute.resolve, hcandidates]

theorem EventBuilder.resolveAll_congr {specs : List (ContextAttribute × AttributeSpec)}
    (hkeep : ∀ key, (specs.any fun e => e.2.pattern.any (·.accepts key)) → keep key)
    (h : AgreeOn keep headers headers') : resolveAll headers specs = resolveAll headers' specs := by
  induction specs with
  | nil => rfl
  | cons e rest ih =>
    obtain ⟨a, s⟩ := e
    have hspec : s.resolve headers = s.resolve headers' :=
      AttributeSpec.resolve_congr (fun key hkey => hkeep key (by rw [List.any_cons, hkey]; rfl)) h
    have hrest : resolveAll headers rest = resolveAll headers' rest :=
      ih fun key hkey => hkeep key (by rw [List.any_cons, hkey, Bool.or_true])
    rw [resolveAll, resolveAll, hspec, hrest]

namespace Transformer

variable {settings : Settings} {formats : List (Supplied EventFormat)} {t : Transformer}
  {room : Nat}

/-- The header has a part in the event: it supplies an attribute or becomes an extension. -/
def partakes (settings : Settings) (t : Transformer) (key : Text) : Bool :=
  settings.supplies key || t.classifier.outcome key = .promoted

/-- The event depends on no other headers than those that have a part in it. -/
theorem toEvent_congr {converter : Option (Supplied MessageConverter)}
    (hmake : Constructed settings formats converter t) {m n : Message}
    (hpayload : m.payload = n.payload) (h : AgreeOn (partakes settings t) m.headers n.headers) :
    t.toEvent m room = t.toEvent n room := by
  obtain ⟨specs, hspecs, hbuilder⟩ := hmake.builder
  have hresolve : t.builder.resolve m.headers = t.builder.resolve n.headers := by
    rw [EventBuilder.resolve, EventBuilder.resolve, EventBuilder.resolveAll_congr _ h]
    intro key hkey
    rw [partakes, Settings.supplies_eq_any hspecs hbuilder, hkey]
    rfl
  have hextensions :
      (t.classifier.classify m.headers).extensions
        = (t.classifier.classify n.headers).extensions := by
    refine OrderedMap.eq_of_entries ?_
    rw [Classifier.entries_extensions, Classifier.entries_extensions]
    refine filter_eq_of_filter_eq (fun e he => ?_) h
    rw [partakes, he, Bool.or_true]
  rw [toEvent, toEvent, hresolve, hpayload, hextensions]

/-! ### Passing through -/

/-- The headers that pass through are the unclassified ones, in order. -/
theorem entries_passing (t : Transformer) (headers : Headers) :
    (t.passing headers).entries
      = headers.entries.filter fun e => t.classifier.outcome e.1 = .unclassified := by
  rw [passing, OrderedMap.entries_filter]
  -- What is removed is a list of keys, so an entry has to be known to be a header.
  refine List.filter_congr fun e he => ?_
  have hkey : e.1 ∈ headers.keys := List.mem_map.mpr ⟨e, he, rfl⟩
  rw [Bool.eq_iff_iff, Bool.not_eq_true', List.contains_eq_mem, decide_eq_false_iff_not,
    Classifier.mem_removed_iff, decide_eq_true_eq, not_and, not_not]
  exact ⟨fun h => h hkey, fun h _ => h⟩

/-- What a transformer that writes formats writes of a message. -/
def written (t : Transformer) (registry : FormatRegistry) (m : Message) (mediaType : Option Text)
    (room : Nat) : Except Failure Bytes := do
  let e ← t.toEvent m room
  let f ← t.chooseFormat registry mediaType
  f.serialize e

/-- The message that comes of the bytes written, or the failure. -/
theorem transform_eq {registry : FormatRegistry} (h : t.strategy = .formats registry) (m : Message)
    (mediaType : Option Text) :
    t.transform m mediaType room = match t.written registry m mediaType room with
      | .ok bytes => .ok ⟨.bytes bytes, t.passing m.headers⟩
      | .error f => .error ⟨f⟩ := by
  rw [transform, written]
  cases t.toEvent m room with
  | error f => rfl
  | ok e =>
    simp only [encode, h]
    cases t.chooseFormat registry mediaType with
    | error f => rfl
    | ok f =>
      show Except.mapError TransformationFailure.mk (f.serialize e >>= fun bytes => .ok _)
        = match f.serialize e with
          | .ok bytes => _
          | .error f => _
      cases f.serialize e <;> rfl

/-- The event that is built has the extensions that it is given. -/
theorem extensions_of_build {attributes : OrderedMap Text Value} {payload : Value}
    {extensions : Headers} {e : Event}
    (h : EventBuilder.build attributes payload extensions room = .ok e) :
    e.extensions = extensions := by
  simp only [EventBuilder.build] at h
  -- Only the last of the checks leaves an event, and validation takes over the extensions.
  split at h
  · obtain ⟨_, h, -⟩ := Except.bind_eq_ok_iff.mp h
    cases h
  · simp only [Except.bind_eq_ok_iff] at h
    obtain ⟨_, -, _, -, _, -, h⟩ := h
    split at h
    · cases h
    · split at h
      · rename_i hvalid
        cases h
        have hextensions := (Event.validate_eq_ok_iff.mp hvalid).extensions
        rw [EventDraft.extensionMap_texts, OrderedMap.ofList_entries] at hextensions
        exact (Except.ok.inj hextensions).symm
      · cases h

/-- The event of a message has the headers that become extensions. -/
theorem extensions_of_toEvent {m : Message} {e : Event} (h : t.toEvent m room = .ok e) :
    e.extensions = (t.classifier.classify m.headers).extensions := by
  obtain ⟨attributes, -, hbuild⟩ := Except.bind_eq_ok_iff.mp h
  exact extensions_of_build hbuild

/-! ### Main statements -/

/-- The results of two messages differ in nothing but the headers that pass through: both are the
same failure, or both have the same bytes as payload and the unclassified headers of their own
message. -/
def SameButPassing (t : Transformer) (m n : Message) :
    Except TransformationFailure Message → Except TransformationFailure Message → Prop
  | .error f, .error g => f = g
  | .ok out, .ok out' =>
    (∃ bytes, out.payload = .bytes bytes ∧ out'.payload = .bytes bytes) ∧
      out.headers.entries
        = (m.headers.entries.filter fun e => t.classifier.outcome e.1 = .unclassified) ∧
      out'.headers.entries
        = n.headers.entries.filter fun e => t.classifier.outcome e.1 = .unclassified
  | _, _ => False

/-- Headers that neither supply attributes nor become extensions have no influence on a failure or
on the bytes written; all that is seen of them is that the unclassified ones pass through.  Headers
that are excluded are not seen at all: without them, or with others in their place, the result is
the same. -/
theorem transform_noninterference (hmake : make settings formats none = .ok t) (room : Nat) :
    (∀ (m n : Message) (mediaType : Option Text), m.payload = n.payload →
      AgreeOn (partakes settings t) m.headers n.headers →
        SameButPassing t m n (t.transform m mediaType room) (t.transform n mediaType room)) ∧
      ∀ (m n : Message) (mediaType : Option Text), m.payload = n.payload →
        AgreeOn (fun key => t.classifier.outcome key ≠ .excluded) m.headers n.headers →
          t.transform m mediaType room = t.transform n mediaType room := by
  have hmade := make_eq_ok_iff.mp hmake
  obtain ⟨registry, hstrategy⟩ := hmade.exists_registry
  have hwritten : ∀ (m n : Message) (mediaType : Option Text), m.payload = n.payload →
      AgreeOn (partakes settings t) m.headers n.headers →
        t.written registry m mediaType room = t.written registry n mediaType room := by
    intro m n mediaType hpayload hheaders
    rw [written, written, toEvent_congr hmade hpayload hheaders]
  refine ⟨?_, ?_⟩
  · intro m n mediaType hpayload hheaders
    rw [transform_eq hstrategy, transform_eq hstrategy, hwritten m n mediaType hpayload hheaders]
    cases t.written registry n mediaType room with
    | error f => exact rfl
    | ok bytes =>
      exact ⟨⟨bytes, rfl, rfl⟩, entries_passing t m.headers, entries_passing t n.headers⟩
  · intro m n mediaType hpayload hheaders
    -- A key that has a part in the event is not excluded: no supplying key is even classified.
    have hpartakes : AgreeOn (partakes settings t) m.headers n.headers := by
      refine filter_eq_of_filter_eq (fun e he => ?_) hheaders
      rw [partakes, Bool.or_eq_true, decide_eq_true_eq] at he
      rcases he with he | he
      · simp [hmade.unclassified_of_supplies he]
      · simp [he]
    have hpassing : t.passing m.headers = t.passing n.headers := by
      refine OrderedMap.eq_of_entries ?_
      rw [entries_passing, entries_passing]
      refine filter_eq_of_filter_eq (fun e he => ?_) hheaders
      rw [decide_eq_true_eq] at he
      simp [he]
    rw [transform_eq hstrategy, transform_eq hstrategy, hpassing,
      hwritten m n mediaType hpayload hpartakes]

/-- Settings that take the identity from the header `id`, and make extensions of the headers that
start with `x-` but for one, which they exclude. -/
def guarded : Settings where
  patterns
    | .id => some "id"
    | _ => none
  defaults
    | .source => some (.text "urn:x")
    | .type => some (.text "t")
    | _ => none
  extensionPatterns := some ["!x-secret", "x-*"]
  defaultMediaType := none

/-- The classifier of `guarded`. -/
def guardedClassifier : Classifier := ⟨[⟨true, .exactly "x-secret"⟩, ⟨false, .startingWith "x-"⟩]⟩

theorem classifier_of_guarded {converter : Option (Supplied MessageConverter)}
    (hmake : make guarded formats converter = .ok t) : t.classifier = guardedClassifier := by
  have h : Classifier.ofTokens (guarded.extensionPatterns.getD []) = .ok guardedClassifier := by
    decide +kernel
  have h' := (make_eq_ok_iff.mp hmake).classifier
  rw [h] at h'
  exact (Except.ok.inj h').symm

/-- A message with the excluded header. -/
def withSecret : Message where
  payload := .bytes [1]
  headers :=
    ⟨[("id", .text "1"), ("x-secret", .text "s"), ("x-a", .text "a"), ("b", .null)], by decide⟩

/-- The same message without the excluded header. -/
def withoutSecret : Message where
  payload := .bytes [1]
  headers := ⟨[("id", .text "1"), ("x-a", .text "a"), ("b", .null)], by decide⟩

/-- The same message with another header that passes through. -/
def withAnother : Message where
  payload := .bytes [1]
  headers := ⟨[("c", .null), ("id", .text "1"), ("x-a", .text "a")], by decide⟩

theorem transform_noninterference_guarded : ∃ t, make guarded [.component .json] none = .ok t ∧
    AgreeOn (partakes guarded t) withSecret.headers withAnother.headers ∧
    SameButPassing t withSecret withAnother (t.transform withSecret none)
      (t.transform withAnother none) ∧
    AgreeOn (fun key => t.classifier.outcome key ≠ .excluded) withSecret.headers
      withoutSecret.headers ∧
    t.transform withSecret none = t.transform withoutSecret none := by
  have hok : (make guarded [.component .json] none).toOption.isSome := by decide +kernel
  obtain ⟨t, ht⟩ := Option.isSome_iff_exists.mp hok
  have hmake := Except.toOption_eq_some_iff.mp ht
  have hpartakes : AgreeOn (partakes guarded t) withSecret.headers withAnother.headers := by
    simp only [AgreeOn, partakes, classifier_of_guarded hmake]
    rfl
  have hexcluded : AgreeOn (fun key => t.classifier.outcome key ≠ .excluded) withSecret.headers
      withoutSecret.headers := by
    simp only [AgreeOn, classifier_of_guarded hmake]
    rfl
  obtain ⟨hbut, hsame⟩ := transform_noninterference hmake Value.usualRoom
  exact ⟨t, hmake, hpartakes, hbut _ _ none rfl hpartakes, hexcluded, hsame _ _ none rfl hexcluded⟩

/-- What becomes of a header in an event and in the message made of it. -/
def Fate (t : Transformer) (e : Event) (out : Message) (key : Text) (v : Value) : Prop :=
  match t.classifier.outcome key with
  | .promoted => e.extensions.get? key = some v ∧ key ∉ out.headers.keys
  | .excluded => key ∉ e.extensions.keys ∧ key ∉ out.headers.keys
  | .unclassified => key ∉ e.extensions.keys ∧ out.headers.get? key = some v

/-- No header is lost, doubled or leaked: each becomes an extension, is dropped or passes through,
as its outcome says, in the order of the message, and nothing else is an extension or passes
through.  Headers that supply attributes pass through. -/
theorem transform_conserves (hmake : make settings formats none = .ok t) {m out : Message}
    {mediaType : Option Text} (h : t.transform m mediaType room = .ok out) :
    (∃ e, t.toEvent m room = .ok e ∧ (∀ key v, (key, v) ∈ m.headers.entries → Fate t e out key v) ∧
      e.extensions.entries
        = (m.headers.entries.filter fun x => t.classifier.outcome x.1 = .promoted) ∧
      out.headers.entries
        = m.headers.entries.filter fun x => t.classifier.outcome x.1 = .unclassified) ∧
      ∀ key, settings.supplies key → t.classifier.outcome key = .unclassified := by
  have hmade := make_eq_ok_iff.mp hmake
  refine ⟨?_, fun key hkey => hmade.unclassified_of_supplies hkey⟩
  obtain ⟨registry, hstrategy⟩ := hmade.exists_registry
  rw [transform_eq hstrategy] at h
  split at h
  · rename_i bytes hbytes
    cases h
    obtain ⟨e, he, -⟩ := Except.bind_eq_ok_iff.mp hbytes
    have hextensions : e.extensions.entries
        = m.headers.entries.filter fun x => t.classifier.outcome x.1 = .promoted := by
      rw [extensions_of_toEvent he, Classifier.entries_extensions]
    have hpassing := entries_passing t m.headers
    refine ⟨e, he, ?_, hextensions, hpassing⟩
    intro key v hmem
    rw [Fate]
    cases hkey : t.classifier.outcome key with
    | promoted =>
      exact ⟨Classifier.get?_of_entries_eq hextensions hkey hmem,
        Classifier.notMem_keys_of_entries_eq hpassing (by simp [hkey])⟩
    | excluded =>
      exact ⟨Classifier.notMem_keys_of_entries_eq hextensions (by simp [hkey]),
        Classifier.notMem_keys_of_entries_eq hpassing (by simp [hkey])⟩
    | unclassified =>
      exact ⟨Classifier.notMem_keys_of_entries_eq hextensions (by simp [hkey]),
        Classifier.get?_of_entries_eq hpassing hkey hmem⟩
  · cases h

theorem transform_conserves_guarded : ∃ t out e, make guarded [.component .json] none = .ok t ∧
    t.transform withSecret none = .ok out ∧ t.toEvent withSecret = .ok e ∧
      Fate t e out "x-a" (.text "a") ∧ Fate t e out "x-secret" (.text "s") ∧
      Fate t e out "b" .null := by
  have hok : ((make guarded [.component .json] none).toOption.bind fun t =>
      (t.transform withSecret none).toOption).isSome := by decide +kernel
  obtain ⟨out, hout⟩ := Option.isSome_iff_exists.mp hok
  obtain ⟨t, ht, hout⟩ := Option.bind_eq_some_iff.mp hout
  rw [Except.toOption_eq_some_iff] at ht hout
  obtain ⟨⟨e, he, hfate, -⟩, -⟩ := transform_conserves ht hout
  exact ⟨t, out, e, ht, hout, he, hfate _ _ (by simp [withSecret]),
    hfate _ _ (by simp [withSecret]), hfate _ _ (by simp [withSecret])⟩

end Transformer

end CloudEnvelope
