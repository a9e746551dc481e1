import CloudEnvelope.Proofs.Event.Validation

/-!
# What validation objects to

`Event.validate_eq_error_iff`: a draft that becomes no event is refused with the problems of all its
fields, in the order of the fields (`EventDraft.problems`).  That it has any at all is a fact about
each check: none refuses without a problem (`Checked.Explained`).
-/

namespace CloudEnvelope

namespace Checked

variable {α β : Type}

/-- A check that refuses has a problem. -/
def Explained (c : Checked α) : Prop := c ≠ .error []

theorem Explained.eq_error_iff {c : Checked α} (h : c.Explained) {ps : List Problem} :
    c = .error ps ↔ ps ≠ [] ∧ c.problems = ps := by
  constructor
  · rintro rfl
    exact ⟨fun hnil => h (congrArg Except.error hnil), rfl⟩
  · rintro ⟨hne, rfl⟩
    cases c with
    | ok a => exact absurd rfl hne
    | error ps => rfl

theorem explained_at' (location : List Step) (x : Except ProblemKind α) :
    (at' location x).Explained := by
  cases x <;> simp [at', Explained]

theorem Explained.both {a : Checked α} {b : Checked β} (ha : a.Explained) (hb : b.Explained) :
    (Checked.both a b).Explained := by
  cases a <;> cases b <;> simp_all [Checked.both, Explained]

theorem Explained.all {cs : List (Checked α)} (h : ∀ c ∈ cs, c.Explained) :
    (Checked.all cs).Explained := by
  induction cs with
  | nil => simp [Checked.all, Explained]
  | cons c cs ih =>
    obtain ⟨hc, hcs⟩ := List.forall_mem_cons.mp h
    have hboth := hc.both (ih hcs)
    rw [Checked.all]
    split
    · simp [Explained]
    · rename_i ps hps
      rw [hps] at hboth
      simpa [Explained] using hboth

theorem Explained.map {c : Checked α} (h : c.Explained) (f : α → β) :
    Explained (Except.map f c) := by
  cases c with
  | ok a => simp [Except.map, Explained]
  | error ps => simpa [Except.map, Explained] using h

/-- Both checks report their problems, the first one before the second. -/
theorem problems_both (a : Checked α) (b : Checked β) :
    (both a b).problems = a.problems ++ b.problems := by
  cases a <;> cases b <;> simp [both, problems]

@[simp] theorem problems_ok (a : α) : problems (.ok a) = [] := rfl

end Checked

namespace EventDraft

theorem explained_mandatory {α : Type} (name : Text) (read : Value → Except ProblemKind α)
    (v : Option Value) : (mandatory name read v).Explained := by
  cases v with
  | none => simp [mandatory, Checked.Explained]
  | some v => exact Checked.explained_at' _ _

theorem explained_defaulted {α : Type} (name : Text) (read : Value → Except ProblemKind α)
    (default : α) (v : Option Value) : (defaulted name read default v).Explained := by
  cases v with
  | none => simp [defaulted, Checked.Explained]
  | some v => exact Checked.explained_at' _ _

theorem explained_extension (e : Value × Value) : (extension e).Explained := by
  rw [extension]
  split <;> simp [Checked.Explained]

theorem explained_extensionMap (es : List (Value × Value)) : (extensionMap es).Explained := by
  refine Checked.Explained.map (Checked.Explained.all ?_) _
  exact List.forall_mem_map.mpr fun e _ => explained_extension e

/-- The problem of a string that has to have a character, if it has none. -/
def emptyField (name s : String) : List Problem :=
  if s = "" then [⟨[.name name], .stringTooShort⟩] else []

theorem problems_nonempty (name s : String) :
    (mandatory name Field.nonempty (some (.text s))).problems = emptyField name s := by
  rw [emptyField]
  split
  · rename_i hempty
    subst hempty
    rfl
  · rename_i hne
    rw [mandatory, Field.nonempty_text hne]
    rfl

theorem problems_defaulted {α : Type} {read : Value → Except ProblemKind α} {v : Value} {a : α}
    (h : read v = .ok a) (name : Text) (default : α) :
    (defaulted name read default (some v)).problems = [] := by
  rw [defaulted, h]
  rfl

/-- The problems of all fields of a draft, in their order. -/
def problems (d : EventDraft) : List Problem :=
  (defaulted "specversion" Field.text (Text.ofString Event.currentVersion) d.specversion).problems
    ++ ((mandatory "id" Field.nonempty d.id).problems
    ++ ((mandatory "source" Field.nonempty d.source).problems
    ++ ((mandatory "type" Field.nonempty d.type).problems
    ++ ((defaulted "time" (Field.optional Field.time) none d.time).problems
    ++ ((defaulted "data_content_type" (Field.optional Field.text) none d.dataContentType).problems
    ++ ((defaulted "data_schema" (Field.optional Field.text) none d.dataSchema).problems
    ++ ((defaulted "subject" (Field.optional Field.text) none d.subject).problems
    ++ ((defaulted "data" Field.bytes [] d.data).problems
    ++ (extensionMap d.extensions).problems))))))))

end EventDraft

open EventDraft in
/-- A draft that becomes no event is refused with the problems of all its fields. -/
theorem Event.validate_eq_error_iff {d : EventDraft} {ps : List Problem} :
    Event.validate d = .error ps ↔ ps ≠ [] ∧ d.problems = ps := by
  have hfields := (explained_defaulted "specversion" Field.text (Text.ofString currentVersion)
    d.specversion).both <|
    (explained_mandatory "id" Field.nonempty d.id).both <|
    (explained_mandatory "source" Field.nonempty d.source).both <|
    (explained_mandatory "type" Field.nonempty d.type).both <|
    (explained_defaulted "time" (Field.optional Field.time) none d.time).both <|
    (explained_defaulted "data_content_type" (Field.optional Field.text) none
      d.dataContentType).both <|
    (explained_defaulted "data_schema" (Field.optional Field.text) none d.dataSchema).both <|
    (explained_defaulted "subject" (Field.optional Field.text) none d.subject).both <|
    (explained_defaulted "data" Field.bytes [] d.data).both <|
    explained_extensionMap d.extensions
  have hproblems : _ ↔ ps ≠ [] ∧ _ = ps := hfields.eq_error_iff
  simp only [Checked.problems_both] at hproblems
  rw [problems, ← hproblems, Event.validate, Except.bind_eq_error_iff]
  constructor
  · rintro (h | ⟨_, -, ⟨⟩⟩)
    exact h
  · exact .inl

end CloudEnvelope
