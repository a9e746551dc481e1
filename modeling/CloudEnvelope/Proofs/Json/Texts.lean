import CloudEnvelope.Proofs.Json.Ascii

/-!
# The texts of a JSON value

`Json.texts` collects the strings of a value and the names of its members, at every level.  A value
that is written with nothing escaped but what must be shows all of them, so that what is written is
free of lone surrogates exactly when each of its texts is (`Json.loneFree_write_unicode_iff`).
-/

namespace CloudEnvelope.Json

mutual

/-- The strings and the names in a value. -/
def texts : Json → List Text
  | text t => [t]
  | array items => itemsTexts items
  | object members => membersTexts members
  | _ => []

/-- The strings and the names in items. -/
def itemsTexts : List Json → List Text
  | [] => []
  | j :: rest => texts j ++ itemsTexts rest

/-- The names of members, and the strings and the names in their values. -/
def membersTexts : List (Text × Json) → List Text
  | [] => []
  | (name, j) :: rest => name :: (texts j ++ membersTexts rest)

end

/-! ### Strings -/

/-- Only a lone surrogate is written as one. -/
theorem loneFree_writePoint_scalar (charset : Charset) (c : Char) :
    (writePoint charset (.scalar c)).LoneFree := by
  rw [writePoint]
  cases hshort : shortEscape? (CodePoint.scalar c).toNat with
  | some t =>
    obtain ⟨e, d, rfl, -, -, -⟩ := shortEscape?_eq_some hshort
    exact Text.loneFree_ofChars _
  | none =>
    dsimp only
    split
    · exact loneFree_escapePoint _
    · exact Text.loneFree_ofChars [c]

theorem loneFree_content_unicode_iff {t : Text} : (content .unicode t).LoneFree ↔ t.LoneFree := by
  refine ⟨loneFree_of_content, fun h half hmem => ?_⟩
  obtain ⟨c, hc, hmem⟩ := List.mem_flatMap.mp hmem
  cases c with
  | lone half' => exact h half' hc
  | scalar c => exact loneFree_writePoint_scalar .unicode c half hmem

/-! ### Values -/

mutual

/-- What is written for a value is free of lone surrogates exactly when its texts are. -/
theorem loneFree_write_unicode_iff (j : Json) :
    (write .unicode j).LoneFree ↔ ∀ t ∈ j.texts, t.LoneFree := by
  have hnone : ∀ {s : Text}, s.LoneFree → (s.LoneFree ↔ ∀ t ∈ ([] : List Text), t.LoneFree) :=
    fun hs => iff_of_true hs fun _ hmem => absurd hmem List.not_mem_nil
  match j with
  | null => exact hnone (Text.loneFree_ofString "null")
  | bool false => exact hnone (Text.loneFree_ofString "false")
  | bool true => exact hnone (Text.loneFree_ofString "true")
  | int n => exact hnone (loneFree_ofInt n)
  | float x => exact hnone (loneFree_writeFloat x)
  | text t =>
    rw [texts, List.forall_mem_singleton, write, loneFree_writeString_iff,
      loneFree_content_unicode_iff]
  | array items =>
    rw [texts, loneFree_write_array_iff]
    exact forall_items_loneFree_iff items
  | object members =>
    rw [texts, loneFree_write_object_iff]
    exact forall_members_loneFree_iff members

theorem forall_items_loneFree_iff (items : List Json) :
    (∀ j ∈ items, (write .unicode j).LoneFree) ↔ ∀ t ∈ itemsTexts items, t.LoneFree := by
  match items with
  | [] => exact ⟨fun _ => nofun, fun _ => nofun⟩
  | j :: rest =>
    rw [itemsTexts, List.forall_mem_cons, List.forall_mem_append, loneFree_write_unicode_iff j,
      forall_items_loneFree_iff rest]

theorem forall_members_loneFree_iff (members : List (Text × Json)) :
    (∀ m ∈ members, (content .unicode m.1).LoneFree ∧ (write .unicode m.2).LoneFree) ↔
      ∀ t ∈ membersTexts members, t.LoneFree := by
  match members with
  | [] => exact ⟨fun _ => nofun, fun _ => nofun⟩
  | (name, j) :: rest =>
    rw [membersTexts, List.forall_mem_cons, List.forall_mem_cons, List.forall_mem_append,
      loneFree_content_unicode_iff, loneFree_write_unicode_iff j,
      forall_members_loneFree_iff rest, and_assoc]

end

end CloudEnvelope.Json
