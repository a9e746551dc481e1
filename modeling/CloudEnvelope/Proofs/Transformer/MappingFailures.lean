import CloudEnvelope.Proofs.Transformer.Failures

/-!
# Which messages fail for a mapping

`Transformer.toEvent_error_isMapping`: every failure to make an event of a message is a mapping
failure, unless it is a fault of the text that is to be made of the payload.  Such a fault comes
through as it is: the text holds half of a surrogate pair and has no form in UTF-8, or it cannot be
made at all, for an integer of too many digits or for values too deep inside one another.  This is
what a message fails for exactly when all its attributes are resolved, whatever these are, for the
data is made before the attributes are validated.
-/

namespace CloudEnvelope

/-- The failure is of a kind that belongs to the mapping failures. -/
def Failure.IsMapping (f : Failure) : Prop :=
  ∃ k, f.kind? = some k ∧ (k = .mapping ∨ .mapping ∈ k.ancestors)

variable {failure : Failure}

/-- A bare fault is of no kind. -/
theorem Failure.not_isMapping_fault (f : Fault) : ¬(fault f).IsMapping := by
  rintro ⟨k, hk, -⟩
  cases hk

/-- Of what a message can be wrong about, only the text of its payload is no mapping failure. -/
theorem Failure.OfMessage.isMapping_iff (h : failure.OfMessage) :
    failure.IsMapping ↔ ∀ fault, failure ≠ .fault fault := by
  cases failure with
  | missingAttribute _ _ => exact iff_of_true ⟨_, rfl, by decide⟩ nofun
  | ambiguousAttribute _ _ _ => exact iff_of_true ⟨_, rfl, by decide⟩ nofun
  | typeMismatch _ => exact iff_of_true ⟨_, rfl, by decide⟩ nofun
  | invalidEvent _ => exact iff_of_true ⟨_, rfl, by decide⟩ nofun
  | fault f => exact iff_of_false (Failure.not_isMapping_fault f) fun hne => hne f rfl
  | configuration _ => exact h.elim
  | unsupportedFormat _ _ => exact h.elim
  | encoding _ => exact h.elim

/-- What values are objected to for: the digits of one of their integers, or their depth. -/
theorem Value.Judged.cases_of_some {room depth : Nat} {integers : List Int} {fault : Fault}
    (h : Judged room depth integers (some fault)) :
    (fault = .tooManyDigits ∧ ∃ n ∈ integers, ¬Text.canSpell n) ∨
      fault = .nestedTooDeep ∧ room < depth := by
  cases h with
  | deep h => exact .inr ⟨rfl, h⟩
  | digits hn h => exact .inl ⟨rfl, _, hn, Bool.eq_false_iff.mp h⟩

/-- Once the mandatory attributes are there and no extension collides, only the payload is left for
a fault. -/
theorem EventBuilder.build_eq_fault_iff {attributes : OrderedMap Text Value} {payload : Value}
    {extensions : Headers} {room : Nat} {fault : Fault}
    (hdemand : ∀ a ∈ ContextAttribute.mandatory, ∃ v, demand attributes a = .ok v)
    (hfree : colliding extensions = []) :
    build attributes payload extensions room = .error (.fault fault) ↔
      payload.toData room = .error fault := by
  obtain ⟨draft, hbuild⟩ := exists_draft_of_build payload room hdemand hfree
  rw [hbuild]
  cases payload.toData room with
  | error fault' => simp
  | ok data =>
    refine iff_of_false (fun h => ?_) nofun
    obtain ⟨problems, -, hproblems⟩ := Except.mapError_eq_error_iff.mp h
    cases hproblems

namespace Transformer

variable {settings : Settings} {formats : List (Supplied EventFormat)}
  {converter : Option (Supplied MessageConverter)} {t : Transformer}

/-- A message fails for a fault when all its attributes are resolved and its payload has it. -/
theorem toEvent_eq_fault_iff (h : Constructed settings formats converter t) {m : Message}
    {room : Nat} {fault : Fault} :
    t.toEvent m room = .error (.fault fault) ↔
      (∀ a, settings.Resolvable m.headers a) ∧ m.payload.toData room = .error fault := by
  constructor
  · intro herror
    rcases Except.bind_eq_error_iff.mp herror with hresolve | ⟨attributes, hresolve, hbuild⟩
    · -- The headers are never at fault here: resolving fails in the ways of mappings.
      exact (EventBuilder.ofHeaders_of_resolve hresolve).elim
    · obtain ⟨hres, -⟩ := h.resolve_eq_ok_iff.mp hresolve
      exact ⟨hres, (EventBuilder.build_eq_fault_iff (EventBuilder.exists_demand hresolve)
        (h.colliding_extensions m.headers)).mp hbuild⟩
  · rintro ⟨hres, hdata⟩
    have hresolve := h.resolve_eq_ok_iff.mpr ⟨hres, rfl⟩
    exact Except.bind_eq_error_iff.mpr (.inr ⟨_, hresolve,
      (EventBuilder.build_eq_fault_iff (EventBuilder.exists_demand hresolve)
        (h.colliding_extensions m.headers)).mpr hdata⟩)

/-- Every message that has no event fails with a mapping failure, unless its attributes are all
resolved and the text of its payload holds a lone surrogate or cannot be made.  What keeps a text
from being made is an integer with too many digits or the depth of the payload. -/
theorem toEvent_error_isMapping (hmake : make settings formats converter = .ok t) (m : Message)
    (room : Nat) :
    (∀ f, t.toEvent m room = .error f → (f.IsMapping ↔ ∀ fault, f ≠ .fault fault)) ∧
      (t.toEvent m room = .error (.fault .unencodableText) ↔
        (∀ a, settings.Resolvable m.headers a) ∧ m.payload.Tellable room ∧
          ∃ text, m.payload.dataText? = some text ∧ ¬text.LoneFree) ∧
      ((∃ fault, fault ≠ .unencodableText ∧ t.toEvent m room = .error (.fault fault)) ↔
        (∀ a, settings.Resolvable m.headers a) ∧ ¬m.payload.Tellable room) ∧
      ∀ fault, t.toEvent m room = .error (.fault fault) → fault = .unencodableText ∨
        (fault = .tooManyDigits ∧ ∃ n ∈ m.payload.integers, ¬Text.canSpell n) ∨
          fault = .nestedTooDeep ∧ room < m.payload.depth := by
  have h := make_eq_ok_iff.mp hmake
  refine ⟨fun f hf => (ofMessage_of_toEvent h hf).isMapping_iff, ?_, ?_, fun fault hfault => ?_⟩
  · rw [toEvent_eq_fault_iff h, Value.toData_eq_unencodable_iff]
  · simp only [toEvent_eq_fault_iff h, ← Value.exists_toData_eq_error_iff]
    exact ⟨fun ⟨fault, hne, hres, hdata⟩ => ⟨hres, fault, hne, hdata⟩,
      fun ⟨hres, fault, hne, hdata⟩ => ⟨fault, hne, hres, hdata⟩⟩
  · obtain ⟨-, hdata⟩ := (toEvent_eq_fault_iff h).mp hfault
    by_cases hne : fault = .unencodableText
    · exact .inl hne
    · exact .inr (Value.judged_of_toData_eq_error hdata hne).cases_of_some

/-- A message whose payload is half of a surrogate pair. -/
def halvedPayload : Message where
  payload := .text [.firstLone]
  headers := ⟨[("id", .text "1")], by decide⟩

/-- The payload fails in the text codec. -/
theorem exists_toEvent_halvedPayload :
    ∃ t, make addressed [.component .json] none = .ok t ∧
      t.toEvent halvedPayload = .error (.fault .unencodableText) := by
  have hok : ((make addressed [.component .json] none).toOption.any fun t =>
      match t.toEvent halvedPayload with
      | .error f => f = .fault .unencodableText
      | .ok _ => false) := by decide +kernel
  obtain ⟨t, ht, hok⟩ := (Option.any_eq_true _ _).mp hok
  rw [Except.toOption_eq_some_iff] at ht
  split at hok
  · rename_i f hf
    obtain rfl := of_decide_eq_true hok
    exact ⟨t, ht, hf⟩
  · cases hok

theorem toEvent_error_isMapping_halvedPayload :
    ∃ t, make addressed [.component .json] none = .ok t ∧
      (∀ f, t.toEvent halvedPayload = .error f → (f.IsMapping ↔ ∀ fault, f ≠ .fault fault)) ∧
      t.toEvent halvedPayload = .error (.fault .unencodableText) ∧
      (∀ a, addressed.Resolvable halvedPayload.headers a) ∧
        halvedPayload.payload.Tellable Value.usualRoom ∧
          ∃ text, halvedPayload.payload.dataText? = some text ∧ ¬text.LoneFree := by
  obtain ⟨t, ht, hfault⟩ := exists_toEvent_halvedPayload
  obtain ⟨hmapping, hunencodable, -⟩ := toEvent_error_isMapping ht halvedPayload Value.usualRoom
  exact ⟨t, ht, hmapping, hfault, hunencodable.mp hfault⟩

/-- The fault of the payload is no mapping failure. -/
theorem halvedPayload_unmapped :
    ∃ t f, make addressed [.component .json] none = .ok t ∧ t.toEvent halvedPayload = .error f ∧
      ¬f.IsMapping := by
  obtain ⟨t, ht, hfault⟩ := exists_toEvent_halvedPayload
  exact ⟨t, _, ht, hfault, Failure.not_isMapping_fault _⟩

end Transformer

end CloudEnvelope
