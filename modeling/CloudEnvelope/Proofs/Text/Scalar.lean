import CloudEnvelope.Text.Utf8

/-!
# Texts of scalar values

A text has scalar values, a string and a UTF-8 form exactly when it is free of lone surrogates
(`Text.scalars?_eq_some_iff`, `Text.loneFree_iff`).  `Text.chars` reads off the scalar values
without asking; it goes through `++` piece by piece, which is how the readers of written texts see
their input, and it loses nothing on a text that is free of lone surrogates (`Text.ofChars_chars`).
-/

namespace CloudEnvelope

/-- The first half of a surrogate pair, `U+D800`, on its own. -/
def CodePoint.firstLone : CodePoint := .lone ⟨0, by decide⟩

namespace Text

/-- No lone surrogate stands in the text. -/
def LoneFree (t : Text) : Prop := ∀ half, CodePoint.lone half ∉ t

@[simp] theorem loneFree_cons {c : CodePoint} {t : Text} :
    LoneFree (c :: t) ↔ (∀ half, c ≠ .lone half) ∧ LoneFree t := by
  simp only [LoneFree, List.mem_cons, not_or, forall_and]
  exact and_congr_left fun _ => forall_congr' fun half => not_congr eq_comm

@[simp] theorem loneFree_append {s t : Text} : LoneFree (s ++ t) ↔ LoneFree s ∧ LoneFree t := by
  simp only [LoneFree, List.mem_append, not_or, forall_and]

@[simp] theorem loneFree_ofChars (cs : List Char) : LoneFree (ofChars cs) := by
  intro half h
  obtain ⟨c, -, hc⟩ := List.mem_map.mp h
  cases hc

@[simp] theorem loneFree_ofString (s : String) : LoneFree (ofString s) := loneFree_ofChars s.toList

theorem loneFree_joinWith_iff {mark : Text} (hmark : mark.LoneFree) {ts : List Text} :
    (joinWith mark ts).LoneFree ↔ ∀ t ∈ ts, t.LoneFree := by
  induction ts with
  | nil => simp [joinWith, LoneFree]
  | cons t rest ih =>
    cases rest with
    | nil => simp [joinWith]
    | cons u rest =>
      have hcons : joinWith mark (t :: u :: rest) = t ++ mark ++ joinWith mark (u :: rest) := rfl
      have hmem : (∀ s ∈ t :: u :: rest, s.LoneFree) ↔
          t.LoneFree ∧ ∀ s ∈ u :: rest, s.LoneFree := List.forall_mem_cons
      rw [hcons, loneFree_append, loneFree_append, ih, hmem, and_iff_left hmark]

theorem ofChars_append (cs ds : List Char) : ofChars (cs ++ ds) = ofChars cs ++ ofChars ds :=
  List.map_append

theorem mem_ofChars_iff {c : Char} {cs : List Char} : CodePoint.scalar c ∈ ofChars cs ↔ c ∈ cs := by
  simp [ofChars]

theorem ofChars_inj {cs ds : List Char} : ofChars cs = ofChars ds ↔ cs = ds := by
  refine ⟨fun h => ?_, congrArg ofChars⟩
  have hscalars := congrArg scalars? h
  rwa [scalars?_ofChars, scalars?_ofChars, Option.some.injEq] at hscalars

theorem ofString_inj {s t : String} : ofString s = ofString t ↔ s = t := by
  constructor
  · intro h
    have hstring := congrArg toString? h
    rwa [toString?_ofString, toString?_ofString, Option.some.injEq] at hstring
  · rintro rfl
    rfl

theorem ofString_eq_nil_iff {s : String} : ofString s = [] ↔ s = "" := by
  rw [ofString, List.map_eq_nil_iff, String.toList_eq_nil_iff]

/-! ### Scalar values -/

/-- A text has scalar values exactly when it is the text of them. -/
theorem scalars?_eq_some_iff {t : Text} {cs : List Char} :
    t.scalars? = some cs ↔ t = ofChars cs := by
  constructor
  · intro h
    induction t generalizing cs with
    | nil =>
      obtain rfl : [] = cs := by simpa [scalars?] using h
      rfl
    | cons c t ih =>
      cases c with
      | lone half => simp [scalars?, CodePoint.scalar?] at h
      | scalar c =>
        obtain ⟨ds, hds, rfl⟩ : ∃ ds, scalars? t = some ds ∧ c :: ds = cs := by
          simpa [scalars?, CodePoint.scalar?, Option.bind_eq_some_iff] using h
        rw [ih hds]
        rfl
  · rintro rfl
    exact scalars?_ofChars cs

theorem toString?_eq_some_iff {t : Text} {s : String} :
    t.toString? = some s ↔ t = ofString s := by
  constructor
  · intro h
    obtain ⟨cs, hcs, rfl⟩ := Option.map_eq_some_iff.mp h
    rw [scalars?_eq_some_iff.mp hcs, ofString, String.toList_ofList, ofChars]
  · rintro rfl
    exact toString?_ofString s

theorem loneFree_iff {t : Text} : t.LoneFree ↔ ∃ cs, t = ofChars cs := by
  constructor
  · intro h
    induction t with
    | nil => exact ⟨[], rfl⟩
    | cons c t ih =>
      rw [loneFree_cons] at h
      obtain ⟨cs, rfl⟩ := ih h.2
      cases c with
      | lone half => exact absurd rfl (h.1 half)
      | scalar c => exact ⟨c :: cs, rfl⟩
  · rintro ⟨cs, rfl⟩
    exact loneFree_ofChars cs

/-! ### Scalar values without asking -/

/-- The scalar values among the code points of a text. -/
def chars (t : Text) : List Char := t.filterMap CodePoint.scalar?

@[simp] theorem chars_nil : chars [] = [] := rfl

@[simp] theorem chars_cons (c : Char) (t : Text) : chars (.scalar c :: t) = c :: t.chars := rfl

@[simp] theorem chars_append (s t : Text) : chars (s ++ t) = s.chars ++ t.chars :=
  List.filterMap_append

@[simp] theorem chars_ofChars (cs : List Char) : chars (ofChars cs) = cs := by
  induction cs with
  | nil => rfl
  | cons c cs ih => exact congrArg (c :: ·) ih

theorem mem_chars_iff {c : Char} {t : Text} : c ∈ t.chars ↔ CodePoint.scalar c ∈ t := by
  unfold chars
  rw [List.mem_filterMap]
  constructor
  · rintro ⟨d, hd, hc⟩
    cases d with
    | lone half => cases hc
    | scalar d => rwa [← Option.some.inj hc]
  · intro hc
    exact ⟨_, hc, rfl⟩

/-- A text that is free of lone surrogates is the text of its scalar values. -/
theorem ofChars_chars {t : Text} (h : t.LoneFree) : ofChars t.chars = t := by
  obtain ⟨cs, rfl⟩ := loneFree_iff.mp h
  rw [chars_ofChars]

/-! ### UTF-8 form -/

theorem utf8?_eq_some_iff {t : Text} {bytes : Bytes} :
    t.utf8? = some bytes ↔ ∃ cs, t = ofChars cs ∧ Utf8.encode cs = bytes := by
  simp only [utf8?, Option.map_eq_some_iff, scalars?_eq_some_iff]

theorem utf8?_ofChars (cs : List Char) : utf8? (ofChars cs) = some (Utf8.encode cs) :=
  utf8?_eq_some_iff.mpr ⟨cs, rfl, rfl⟩

theorem utf8?_ofString (s : String) : utf8? s = some (Utf8.ofString s) := utf8?_ofChars s.toList

/-- A text has a UTF-8 form exactly when it is free of lone surrogates. -/
theorem isSome_utf8?_iff {t : Text} : t.utf8?.isSome ↔ t.LoneFree := by
  rw [Option.isSome_iff_exists, loneFree_iff]
  constructor
  · rintro ⟨bytes, h⟩
    obtain ⟨cs, rfl, -⟩ := utf8?_eq_some_iff.mp h
    exact ⟨cs, rfl⟩
  · rintro ⟨cs, rfl⟩
    exact ⟨_, utf8?_ofChars cs⟩

end Text

end CloudEnvelope
