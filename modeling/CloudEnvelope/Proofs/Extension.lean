import CloudEnvelope.Extension
import CloudEnvelope.Proofs.Except
import Mathlib.Data.List.Forall2
import Mathlib.Tactic.Common

/-!
# Extension values entry by entry

`ExtensionValue.ofEntries_eq_ok_iff`: the extensions of a map are accepted exactly when each entry
is, and each keeps its name and its place.  An entry is accepted when its name is not forbidden and
its value has a form (`ExtensionValue.ofValue_eq_ok_iff`), and otherwise the objection is to one of
the two (`ExtensionValue.ofValue_eq_error_iff`).  Where text is made of it there may be one more, to
the digits of an integer (`ExtensionValue.textOf_eq_error_iff`).
-/

namespace CloudEnvelope.ExtensionValue

/-! ### One entry -/

theorem isForbidden_iff {name : Text} :
    isForbidden name ↔ name ∈ Event.forbiddenNames.map Text.ofString := by
  simp only [isForbidden, List.any_eq_true, beq_iff_eq, List.mem_map]

theorem ofValue_eq_ok_iff {name : Text} {v : Value} {x : ExtensionValue} :
    ofValue name v = .ok x ↔ ¬isForbidden name ∧ ofValue? v = some x := by
  rw [ofValue]
  split
  · rename_i hforbidden
    simp [hforbidden]
  · rename_i hforbidden
    cases ofValue? v <;> simp [hforbidden]

theorem ofValue_eq_error_iff {name : Text} {v : Value} {issue : EncodingIssue} :
    ofValue name v = .error issue ↔ (isForbidden name ∧ issue = .reservedExtension name) ∨
      (¬isForbidden name ∧ ofValue? v = none ∧ issue = .unsupportedType name v.typeName) := by
  rw [ofValue]
  split
  · rename_i hforbidden
    simp [hforbidden, eq_comm]
  · rename_i hforbidden
    cases ofValue? v <;> simp [hforbidden, eq_comm]

/-- An extension is refused for its name or for its value. -/
theorem isNone_ofValue (name : Text) (v : Value) :
    (ofValue name v).toOption.isNone = (isForbidden name || (ofValue? v).isNone) := by
  rw [ofValue]
  cases isForbidden name with
  | true => rfl
  | false => cases ofValue? v <;> rfl

/-- An extension value has itself as its form. -/
theorem ofValue?_toValue (x : ExtensionValue) : ofValue? x.toValue = some x := by
  cases x <;> rfl

/-- A text is made of an extension value, unless it is an integer of too many digits. -/
theorem textOf_eq_ok_iff {name : Text} {v : Value} {t : Text} :
    textOf name v = .ok t ↔ ∃ x, ofValue name v = .ok x ∧ x.isSpelled ∧ x.headerText = t := by
  rw [textOf]
  cases ofValue name v with
  | error issue => simp
  | ok x => cases hx : x.isSpelled <;> simp [hx]

theorem textOf_eq_error_iff {name : Text} {v : Value} {failure : Failure} :
    textOf name v = .error failure ↔
      (∃ issue, ofValue name v = .error issue ∧ .encoding issue = failure) ∨
        ∃ x, ofValue name v = .ok x ∧ x.isSpelled = false ∧ .fault .tooManyDigits = failure := by
  rw [textOf]
  cases ofValue name v with
  | error issue => simp
  | ok x => cases hx : x.isSpelled <;> simp [hx]

/-- Of the values that have a form, only integers of too many digits cannot be written as text. -/
theorem isSpelled_iff_of_ofValue? {v : Value} {x : ExtensionValue} (h : ofValue? v = some x) :
    x.isSpelled ↔ ∀ n, v = .int n → Text.canSpell n := by
  cases v <;> cases h <;> simp [isSpelled]

/-! ### All entries -/

/-- An entry and the same name with the extension value of its value. -/
def Reads (e : Text × Value) (x : Text × ExtensionValue) : Prop :=
  x.1 = e.1 ∧ ofValue e.1 e.2 = .ok x.2

theorem ofEntries_eq_ok_iff {es : List (Text × Value)} {xs : List (Text × ExtensionValue)} :
    ofEntries es = .ok xs ↔ List.Forall₂ Reads es xs := by
  induction es generalizing xs with
  | nil => simp [ofEntries, eq_comm]
  | cons e rest ih =>
    obtain ⟨name, v⟩ := e
    rw [List.forall₂_cons_left_iff]
    cases h : ofValue name v with
    | error issue =>
      have hnot : ∀ x, ¬Reads (name, v) x := fun x hx => by simp [Reads, h] at hx
      simp [ofEntries, h, hnot]
    | ok y =>
      have hiff : ∀ x, Reads (name, v) x ↔ x = (name, y) := fun x => by
        simp [Reads, h, Prod.ext_iff, eq_comm]
      simp only [ofEntries, h, Except.map_eq_ok_iff, hiff, ih, exists_and_left, exists_eq_left]
      exact exists_congr fun ys => and_congr_right fun _ => eq_comm

/-- The extensions of a map are accepted when each one is. -/
theorem exists_ofEntries_iff {es : List (Text × Value)} :
    (∃ xs, ofEntries es = .ok xs) ↔ ∀ e ∈ es, ∃ x, ofValue e.1 e.2 = .ok x := by
  simp only [ofEntries_eq_ok_iff]
  constructor
  · rintro ⟨xs, h⟩
    induction h with
    | nil => exact fun e he => absurd he List.not_mem_nil
    | @cons e x es xs hread _ ih =>
      intro e' he'
      rcases List.mem_cons.mp he' with rfl | he'
      · exact ⟨x.2, hread.2⟩
      · exact ih e' he'
  · intro h
    induction es with
    | nil => exact ⟨[], .nil⟩
    | cons e es ih =>
      obtain ⟨x, hx⟩ := h e (List.mem_cons_self ..)
      obtain ⟨xs, hxs⟩ := ih fun e' he' => h e' (List.mem_cons_of_mem _ he')
      exact ⟨(e.1, x) :: xs, .cons ⟨rfl, hx⟩ hxs⟩

/-- What a map is refused for, one of its entries is refused for. -/
theorem exists_of_ofEntries_eq_error {es : List (Text × Value)} {issue : EncodingIssue}
    (h : ofEntries es = .error issue) : ∃ e ∈ es, ofValue e.1 e.2 = .error issue := by
  induction es with
  | nil => cases h
  | cons e rest ih =>
    rw [ofEntries] at h
    split at h
    · rename_i hvalue
      cases h
      exact ⟨e, List.mem_cons_self, hvalue⟩
    · obtain ⟨e', he', hvalue⟩ := ih (Except.map_eq_error_iff.mp h)
      exact ⟨e', List.mem_cons_of_mem _ he', hvalue⟩

/-- The names stay as they are. -/
theorem map_fst_of_ofEntries {es : List (Text × Value)} {xs : List (Text × ExtensionValue)}
    (h : ofEntries es = .ok xs) : xs.map (·.1) = es.map (·.1) := by
  rw [ofEntries_eq_ok_iff] at h
  induction h with
  | nil => rfl
  | cons hread _ ih => rw [List.map_cons, List.map_cons, ih, hread.1]

/-- What is accepted comes of an entry. -/
theorem exists_reads_of_mem {es : List (Text × Value)} {xs : List (Text × ExtensionValue)}
    (h : ofEntries es = .ok xs) {x : Text × ExtensionValue} (hx : x ∈ xs) :
    ∃ e ∈ es, Reads e x := by
  rw [ofEntries_eq_ok_iff] at h
  induction h with
  | nil => cases hx
  | cons hread _ ih =>
    rcases List.mem_cons.mp hx with rfl | hx
    · exact ⟨_, List.mem_cons_self, hread⟩
    · obtain ⟨e, he, hread⟩ := ih hx
      exact ⟨e, List.mem_cons_of_mem _ he, hread⟩

/-- Every entry has its extension value. -/
theorem exists_mem_of_ofEntries {es : List (Text × Value)} {xs : List (Text × ExtensionValue)}
    (h : ofEntries es = .ok xs) {e : Text × Value} (he : e ∈ es) : ∃ x ∈ xs, Reads e x := by
  rw [ofEntries_eq_ok_iff] at h
  induction h with
  | nil => cases he
  | cons hread _ ih =>
    rcases List.mem_cons.mp he with rfl | he
    · exact ⟨_, List.mem_cons_self, hread⟩
    · obtain ⟨x, hx, hread⟩ := ih he
      exact ⟨x, List.mem_cons_of_mem _ hx, hread⟩

/-- What is asked of the names and of the extension values is asked of each entry. -/
theorem forall_mem_iff_of_ofEntries {P : Text → Prop} {Q : ExtensionValue → Prop}
    {es : List (Text × Value)} {xs : List (Text × ExtensionValue)} (h : ofEntries es = .ok xs) :
    (∀ x ∈ xs, P x.1 ∧ Q x.2) ↔ ∀ e ∈ es, P e.1 ∧ ∃ x, ofValue e.1 e.2 = .ok x ∧ Q x := by
  rw [ofEntries_eq_ok_iff] at h
  induction h with
  | nil => simp
  | cons hread _ ih =>
    obtain ⟨hname, hvalue⟩ := hread
    rw [List.forall_mem_cons, List.forall_mem_cons, ih, hname, hvalue]
    simp

/-- No integer among the entries has too many digits to be written. -/
def Spelled (es : List (Text × Value)) : Prop := ∀ e ∈ es, ∀ n, e.2 = .int n → Text.canSpell n

theorem forall_isSpelled_iff {es : List (Text × Value)} {xs : List (Text × ExtensionValue)}
    (h : ofEntries es = .ok xs) : (∀ x ∈ xs, x.2.isSpelled) ↔ Spelled es := by
  have hsome := exists_ofEntries_iff.mp ⟨xs, h⟩
  have heach := forall_mem_iff_of_ofEntries (P := fun _ => True) (Q := fun x => x.isSpelled) h
  simp only [true_and] at heach
  rw [heach]
  refine forall₂_congr fun e he => ?_
  obtain ⟨x, hx⟩ := hsome e he
  rw [hx, ← isSpelled_iff_of_ofValue? (ofValue_eq_ok_iff.mp hx).2]
  simp

/-- No accepted extension has a forbidden name. -/
theorem not_isForbidden_of_ofEntries {es : List (Text × Value)} {xs : List (Text × ExtensionValue)}
    (h : ofEntries es = .ok xs) : ∀ x ∈ xs, ¬isForbidden x.1 := by
  intro x hx
  obtain ⟨e, -, hname, hvalue⟩ := exists_reads_of_mem h hx
  rw [hname]
  exact (ofValue_eq_ok_iff.mp hvalue).1

/-- A map is refused for the first of its entries that is. -/
theorem ofEntries_of_find? {es : List (Text × Value)} {e : Text × Value} {issue : EncodingIssue}
    (hfind : (es.find? fun e => (ofValue e.1 e.2).toOption.isNone) = some e)
    (h : ofValue e.1 e.2 = .error issue) : ofEntries es = .error issue := by
  induction es with
  | nil => cases hfind
  | cons f rest ih =>
    rw [ofEntries]
    cases hvalue : ofValue f.1 f.2 with
    | error issue' =>
      rw [List.find?_cons_of_pos (by rw [hvalue]; rfl)] at hfind
      cases hfind
      rw [hvalue] at h
      cases h
      rfl
    | ok x =>
      rw [List.find?_cons_of_neg (by rw [hvalue]; exact Bool.false_ne_true)] at hfind
      dsimp only
      rw [ih hfind]
      rfl

/-- Extension values are accepted as they are under names that are not forbidden. -/
theorem ofEntries_toValue {xs : List (Text × ExtensionValue)} (h : ∀ x ∈ xs, ¬isForbidden x.1) :
    ofEntries (xs.map fun x => (x.1, x.2.toValue)) = .ok xs := by
  rw [ofEntries_eq_ok_iff, List.forall₂_map_left_iff, List.forall₂_same]
  exact fun x hx => ⟨rfl, ofValue_eq_ok_iff.mpr ⟨h x hx, ofValue?_toValue x.2⟩⟩

end CloudEnvelope.ExtensionValue
