import CloudEnvelope.Proofs.Format.Decoders
import CloudEnvelope.Proofs.Format.JsonAcceptance
import Mathlib.Data.List.Find

/-!
# Events in JSON written again

The reader takes every member that is no attribute and no data as an extension, whatever value it
has.  The writer has a form for truth values, integers and texts (`Json.isExtension`).  So what is
read is written again exactly when every such member has one of these values, as long as the event
holds no lone surrogate (`Event.Encodable`), and else the writer objects to the first of the others
(`JsonEnvelope.serialize_of_deserialize`).
-/

namespace CloudEnvelope

/-- The value is one that an extension can have. -/
def Json.isExtension : Json → Bool
  | bool _ => true
  | int _ => true
  | text _ => true
  | _ => false

theorem Json.isNone_ofValue?_toValue (j : Json) :
    (ExtensionValue.ofValue? j.toValue).isNone = !j.isExtension := by
  cases j <;> rfl

/-- No text of the event holds a lone surrogate, wherever it stands. -/
structure Event.Encodable (e : Event) : Prop where
  attributes : ∀ a ∈ e.attributes, a.2.LoneFree
  names : ∀ x ∈ e.extensions.entries, x.1.LoneFree
  texts : ∀ x ∈ e.extensions.entries, ∀ t, x.2 = .text t → t.LoneFree
  data : e.EncodableData

namespace JsonEnvelope

variable {ms : List (Text × Json)} {raw : Bytes} {e d : Event}

/-! ### What has been read -/

/-- The members of an object that are extensions, in their order. -/
def extensionMembers (ms : List (Text × Json)) : List (Text × Json) :=
  ms.filter fun m => !isMemberName m.1

/-- The names of members that are extensions are not forbidden. -/
theorem not_isForbidden_of_mem {m : Text × Json} (h : m ∈ extensionMembers ms) :
    ¬ExtensionValue.isForbidden m.1 := by
  have hname := (List.mem_filter.mp h).2
  rw [isMemberName_eq] at hname
  simpa using hname

/-- Of the members that are extensions only a value can be refused. -/
theorem isNone_ofValue_toValue {m : Text × Json} (h : m ∈ extensionMembers ms) :
    (ExtensionValue.ofValue m.1 m.2.toValue).toOption.isNone = !m.2.isExtension := by
  rw [ExtensionValue.isNone_ofValue, Bool.eq_false_iff.mpr (not_isForbidden_of_mem h),
    Json.isNone_ofValue?_toValue, Bool.false_or]

end JsonEnvelope

end CloudEnvelope
