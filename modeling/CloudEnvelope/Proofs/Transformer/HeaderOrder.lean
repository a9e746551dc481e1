import CloudEnvelope.Proofs.Transformer.Envelope

/-!
# The order of headers

`Transformer.toEvent_perm`: the order in which a message has its headers does not matter for its
event.  In another order the same message has an event with the same attributes, the same data and
the same extensions, or it has none for the same reason; only the keys that an ambiguous attribute
reports come in the order of the headers (`Failure.SameButOrder`).

Attributes are resolved in the order of their specifications, so that the first failure is that of
the same attribute, and each looks at the headers that its pattern accepts, which are as many in
every order.  What is built of them goes alike as well: extensions are looked up, and never fail.
-/

namespace CloudEnvelope

/-! ### Results that differ in order -/

/-- The same failure, but for the order of the keys that an ambiguous attribute reports. -/
inductive Failure.SameButOrder : Failure → Failure → Prop
  | refl (failure : Failure) : SameButOrder failure failure
  | ambiguous {name pattern : Text} {keys keys' : List Text} (h : keys.Perm keys') :
    SameButOrder (ambiguousAttribute name pattern keys) (ambiguousAttribute name pattern keys')

/-- The same event, but for the order of its extensions. -/
structure Event.SameButOrder (e e' : Event) : Prop where
  attributes : e.attributes = e'.attributes
  data : e.data = e'.data
  extensions : ∀ key, e.extensions.get? key = e'.extensions.get? key

/-- Results of one computation for two orders of headers. -/
abbrev AlikeBut {α : Type} (R : α → α → Prop) : Except Failure α → Except Failure α → Prop :=
  Except.Related Failure.SameButOrder R

/-- Maps whose entries differ in order have the same values under the same keys. -/
theorem OrderedMap.get?_eq_of_perm {κ α : Type} [DecidableEq κ] {m n : OrderedMap κ α}
    (h : m.entries.Perm n.entries) (k : κ) : m.get? k = n.get? k := by
  ext v
  rw [get?_eq_some_iff, get?_eq_some_iff, h.mem_iff]

/-! ### Resolution -/

section Resolution

variable {headers headers' : Headers}

theorem Attribute.resolve_perm {α : Type} (h : headers.entries.Perm headers'.entries)
    (p : HeaderPattern) (default : Option α) (convert : Text → Value → Except TypeMismatch α)
    (name : Text) (required : Bool) :
    AlikeBut Eq (resolve headers p default convert name required)
      (resolve headers' p default convert name required) := by
  have hcandidates : (candidates headers p).Perm (candidates headers' p) := h.filter _
  unfold resolve
  generalize candidates headers p = xs, candidates headers' p = ys at hcandidates
  match xs, ys with
  | [], ys =>
    obtain rfl := hcandidates.nil_eq
    exact .refl .refl (fun _ => rfl) _
  | [x], ys =>
    obtain rfl := List.singleton_perm.mp hcandidates
    exact .refl .refl (fun _ => rfl) _
  | x :: x' :: xs, ys =>
    -- Two headers in one order are two in the other.
    have hlength := hcandidates.length_eq
    match ys with
    | [] => simp at hlength
    | [y] => simp at hlength
    | y :: y' :: ys => exact .error (.ambiguous (hcandidates.map _))

theorem AttributeSpec.resolve_perm (h : headers.entries.Perm headers'.entries)
    (s : AttributeSpec) : AlikeBut Eq (s.resolve headers) (s.resolve headers') := by
  unfold resolve
  cases s.pattern with
  | none => exact .ok rfl
  | some p => exact Attribute.resolve_perm h p _ _ _ _

namespace EventBuilder

/-- The attributes of headers are resolved alike, one after another. -/
theorem resolveAll_perm (h : headers.entries.Perm headers'.entries)
    (specs : List (ContextAttribute × AttributeSpec)) :
    AlikeBut Eq (resolveAll headers specs) (resolveAll headers' specs) := by
  induction specs with
  | nil => exact .ok rfl
  | cons e rest ih =>
    obtain ⟨a, s⟩ := e
    have hfirst := s.resolve_perm h
    unfold resolveAll
    generalize s.resolve headers = r, s.resolve headers' = r' at hfirst
    cases hfirst with
    | error hfailure => exact .error hfailure
    | ok hvalue =>
      subst hvalue
      cases ‹Option AttributeValue› with
      | none => exact ih
      | some v =>
        apply ih.map
        rintro es _ rfl
        rfl

end EventBuilder

end Resolution

/-! ### Building -/

/-- What goes along with a result of which both sides have the same. -/
theorem Checked.related_both {α β : Type} {S : β → β → Prop} (x : Checked α) {y y' : Checked β}
    (h : Except.Related Eq S y y') :
    Except.Related Eq (fun p q => p.1 = q.1 ∧ S p.2 q.2) (both x y) (both x y') := by
  cases h with
  | ok hy =>
    cases x with
    | ok a => exact .ok ⟨rfl, hy⟩
    | error ps => exact .error rfl
  | error hps =>
    subst hps
    cases x <;> exact .error rfl

/-- Problems that are the same make the same failure. -/
theorem alike_of_checked {R : Event → Event → Prop} {x y : Checked Event} :
    Except.Related Eq R x y →
      AlikeBut R
        (match x with
          | .ok e => pure e
          | .error problems => throw (.invalidEvent problems))
        (match y with
          | .ok e => pure e
          | .error problems => throw (.invalidEvent problems)) := by
  intro h
  cases h with
  | ok he => exact .ok he
  | error hps =>
    subst hps
    exact .error (.refl _)

theorem EventDraft.extensionMap_perm {es fs : Headers} (h : es.entries.Perm fs.entries) :
    Except.Related Eq (fun m n : Headers => m.entries.Perm n.entries)
      (extensionMap (es.entries.map fun e => (.text e.1, e.2)))
      (extensionMap (fs.entries.map fun e => (.text e.1, e.2))) := by
  rw [extensionMap_texts, extensionMap_texts, OrderedMap.ofList_entries, OrderedMap.ofList_entries]
  exact .ok h

/-- Validation goes alike for drafts that differ in the order of their extensions. -/
theorem Event.validate_perm
    {version id source type time contentType schema subject data : Option Value}
    {es fs : Headers} (h : es.entries.Perm fs.entries) :
    Except.Related Eq Event.SameButOrder
      (validate ⟨version, id, source, type, time, contentType, schema, subject, data,
        es.entries.map fun e => (.text e.1, e.2)⟩)
      (validate ⟨version, id, source, type, time, contentType, schema, subject, data,
        fs.entries.map fun e => (.text e.1, e.2)⟩) := by
  have hextensions := EventDraft.extensionMap_perm h
  unfold validate
  apply Except.Related.bind
  -- The extensions are the last field; every field before them is the same on both sides.
  · iterate 9 apply Checked.related_both
    exact hextensions
  · rintro ⟨_, _, _, _, _, _, _, _, _, m⟩ ⟨_, _, _, _, _, _, _, _, _, n⟩
      ⟨⟨⟩, ⟨⟩, ⟨⟩, ⟨⟩, ⟨⟩, ⟨⟩, ⟨⟩, ⟨⟩, ⟨⟩, hmn⟩
    exact .ok ⟨rfl, rfl, OrderedMap.get?_eq_of_perm hmn⟩

namespace EventBuilder

/-- The same names are forbidden in every order. -/
theorem colliding_perm {es fs : Headers} (h : es.entries.Perm fs.entries) :
    colliding es = colliding fs := by
  refine List.filter_congr fun name _ => ?_
  have hkeys : name ∈ es.keys ↔ name ∈ fs.keys := (h.map _).mem_iff
  rw [Bool.eq_iff_iff, OrderedMap.contains_iff, OrderedMap.contains_iff, hkeys]

theorem build_perm (attributes : OrderedMap Text Value) (payload : Value) (room : Nat)
    {es fs : Headers} (h : es.entries.Perm fs.entries) :
    AlikeBut Event.SameButOrder (build attributes payload es room)
      (build attributes payload fs room) := by
  have hrefl : ∀ {α : Type} (x : Except Failure α), AlikeBut Eq x x := fun x =>
    .refl .refl (fun _ => rfl) x
  unfold build
  dsimp only
  rw [colliding_perm h]
  split
  · exact .error (.refl _)
  -- Up to the draft nothing looks at the extensions but for their names.
  · apply Except.Related.bind (hrefl _)
    rintro id _ rfl
    apply Except.Related.bind (hrefl _)
    rintro source _ rfl
    apply Except.Related.bind (hrefl _)
    rintro type _ rfl
    cases payload.toData room with
    | error fault => exact .error (.refl _)
    | ok data => exact alike_of_checked (Event.validate_perm h)

end EventBuilder

/-! ### Main statement -/

namespace Transformer

/-- The event of a message does not depend on the order of its headers, and neither does the reason
for which it has none. -/
theorem toEvent_perm (t : Transformer) (room : Nat) {m n : Message}
    (hpayload : m.payload = n.payload) (h : m.headers.entries.Perm n.headers.entries) :
    AlikeBut Event.SameButOrder (t.toEvent m room) (t.toEvent n room) := by
  have hattributes : AlikeBut Eq (t.builder.resolve m.headers) (t.builder.resolve n.headers) := by
    apply (EventBuilder.resolveAll_perm h t.builder.specs.entries).map
    rintro es _ rfl
    rfl
  have hextensions : (t.classifier.classify m.headers).extensions.entries.Perm
      (t.classifier.classify n.headers).extensions.entries := by
    rw [Classifier.entries_extensions, Classifier.entries_extensions]
    exact h.filter _
  unfold toEvent
  rw [hpayload]
  apply hattributes.bind
  rintro attributes _ rfl
  exact EventBuilder.build_perm attributes n.payload room hextensions

/-- The same message with its headers the other way round. -/
def backwards (m : Message) : Message where
  payload := m.payload
  headers :=
    { entries := m.headers.entries.reverse
      nodup := by
        rw [List.map_reverse]
        exact List.pairwise_reverse.mpr (m.headers.nodup.imp Ne.symm) }

theorem perm_backwards (m : Message) : m.headers.entries.Perm (backwards m).headers.entries :=
  (List.reverse_perm m.headers.entries).symm

/-- A message in which two headers supply the time. -/
def twiceTimed : Message where
  payload := .null
  headers := ⟨[("at-dawn", .null), ("id", .text "1"), ("at-noon", .int 12)], by decide⟩

/-- The event of one message is the same for both orders of its headers, and the failure of another
differs in the order of the keys that it reports. -/
theorem toEvent_perm_backwards : ∃ t, make addressed [.component .json] none = .ok t ∧
    (noonMessage.headers.entries.Perm (backwards noonMessage).headers.entries ∧
      ∃ e e', t.toEvent noonMessage = .ok e ∧ t.toEvent (backwards noonMessage) = .ok e' ∧
        e.SameButOrder e') ∧
    twiceTimed.headers.entries.Perm (backwards twiceTimed).headers.entries ∧
      ∃ f f', t.toEvent twiceTimed = .error f ∧ t.toEvent (backwards twiceTimed) = .error f' ∧
        f ≠ f' ∧ f.SameButOrder f' := by
  have hok : ((make addressed [.component .json] none).toOption.any fun t =>
      (t.toEvent noonMessage).toOption.isSome &&
        match t.toEvent twiceTimed, t.toEvent (backwards twiceTimed) with
        | .error f, .error f' => f ≠ f'
        | _, _ => false) := by
    decide +kernel
  obtain ⟨t, ht, hok⟩ := (Option.any_eq_true _ _).mp hok
  rw [Except.toOption_eq_some_iff] at ht
  rw [Bool.and_eq_true, Except.isSome_toOption_iff] at hok
  obtain ⟨⟨e, he⟩, htwo⟩ := hok
  have hnoon : AlikeBut Event.SameButOrder (t.toEvent noonMessage)
      (t.toEvent (backwards noonMessage)) := toEvent_perm t _ rfl (perm_backwards noonMessage)
  have htwice : AlikeBut Event.SameButOrder (t.toEvent twiceTimed)
      (t.toEvent (backwards twiceTimed)) := toEvent_perm t _ rfl (perm_backwards twiceTimed)
  refine ⟨t, ht, ⟨perm_backwards _, ?_⟩, perm_backwards _, ?_⟩
  · rw [he] at hnoon ⊢
    generalize t.toEvent (backwards noonMessage) = r at hnoon ⊢
    cases hnoon with
    | ok hsame => exact ⟨_, _, rfl, rfl, hsame⟩
  · split at htwo
    · rename_i f f' hf hf'
      rw [hf, hf'] at htwice ⊢
      cases htwice with
      | error hsame => exact ⟨f, f', rfl, rfl, of_decide_eq_true htwo, hsame⟩
    · cases htwo

end Transformer

end CloudEnvelope
