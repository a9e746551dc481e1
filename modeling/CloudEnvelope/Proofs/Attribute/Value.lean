import CloudEnvelope.Attribute.Value
import CloudEnvelope.Proofs.Except

/-!
# Names and values of attributes

Attributes are told apart by their names (`ContextAttribute.name_inj`).  The value that a header
value is converted to has the form of its kind (`AttributeKind.holds_of_convert`), and a URI is
never empty, whether it comes from a text or from a URL (`AttributeKind.ne_nil_of_convert_uri`).
-/

namespace CloudEnvelope

/-! ### Names -/

namespace ContextAttribute

theorem mem_all (a : ContextAttribute) : a ∈ all := by
  cases a <;> decide

/-- An attribute is found under its name. -/
theorem ofName?_name (a : ContextAttribute) : ofName? a.name = some a := by
  cases a <;> rfl

theorem name_inj {a b : ContextAttribute} : (a.name : Text) = b.name ↔ a = b := by
  refine ⟨fun h => ?_, fun h => congrArg (fun c => (c.name : Text)) h⟩
  have hfound := congrArg ofName? h
  rwa [ofName?_name, ofName?_name, Option.some.injEq] at hfound

end ContextAttribute

/-! ### URLs -/

namespace Url

/-- The form of a URL holds the colon behind its scheme. -/
theorem href_ne (u : Url) : u.href ≠ "" := by
  obtain ⟨s, hs⟩ := u.normal
  obtain ⟨p, -, hp⟩ := Option.map_eq_some_iff.mp hs
  simp [← hp, Parts.write]

end Url

/-! ### Conversion -/

namespace AttributeKind

/-- The value has the form of the kind. -/
def Holds : AttributeKind → AttributeValue → Prop
  | timestamp, .time _ => True
  | string, .text _ => True
  | uri, .text _ => True
  | _, _ => False

theorem holds_of_convert {kind : AttributeKind} {name : Text} {v : Value} {value : AttributeValue}
    (h : kind.convert name v = .ok value) : kind.Holds value := by
  cases kind <;> obtain ⟨_, -, rfl⟩ := Except.map_eq_ok_iff.mp h <;> trivial

/-- What has the form of a timestamp is a time. -/
theorem exists_map_time {x : Option AttributeValue} (h : ∀ y ∈ x, timestamp.Holds y) :
    ∃ r : Option DateTime, r.map .time = x := by
  cases x with
  | none => exact ⟨none, rfl⟩
  | some y =>
    cases y with
    | text t => exact (h _ rfl).elim
    | time t => exact ⟨some t, rfl⟩

/-- What has the form of any other kind is a text. -/
theorem exists_map_text {kind : AttributeKind} {x : Option AttributeValue}
    (h : ∀ y ∈ x, kind.Holds y) (hkind : kind ≠ timestamp) :
    ∃ r : Option Text, r.map .text = x := by
  cases x with
  | none => exact ⟨none, rfl⟩
  | some y =>
    cases y with
    | text t => exact ⟨some t, rfl⟩
    | time t =>
      cases kind with
      | string => exact (h _ rfl).elim
      | uri => exact (h _ rfl).elim
      | timestamp => exact absurd rfl hkind

theorem ne_nil_of_toUri {name t : Text} {v : Value} (h : toUri name v = .ok t) : t ≠ [] := by
  cases v with
  | url u =>
    cases h
    simpa [Text.ofString] using u.href_ne
  | text t' =>
    simp only [toUri] at h
    split at h
    · rename_i hfault
      cases h
      rintro rfl
      cases hfault
    · cases h
    · cases h
  | _ => cases h

/-- A URI is never empty. -/
theorem ne_nil_of_convert_uri {name t : Text} {v : Value} (h : uri.convert name v = .ok (.text t)) :
    t ≠ [] := by
  obtain ⟨t', ht', heq⟩ := Except.map_eq_ok_iff.mp h
  cases heq
  exact ne_nil_of_toUri ht'

end AttributeKind

end CloudEnvelope
