import CloudEnvelope.OrderedMap
import Mathlib.Data.List.Nodup

/-!
# Entries of ordered maps

A write to a fresh key adds its entry at the end (`OrderedMap.entries_insert_of_notMem`), so a list
of entries whose keys differ is the list of the entries of its map (`OrderedMap.entries_ofList`) and
a map is found again from its entries (`OrderedMap.ofList_entries`).  A look-up finds exactly what
the entries hold (`OrderedMap.get?_eq_some_iff`).

A list of writes to different keys lays them over a map: the keys that are there keep their places
(`OrderedMap.keys_insertAll`), and all keys that are not written to keep their values
(`OrderedMap.get?_insertAll_of_notMem`).
-/

namespace CloudEnvelope.OrderedMap

variable {κ α : Type}

/-- Maps with the same entries are equal. -/
theorem eq_of_entries {m n : OrderedMap κ α} (h : m.entries = n.entries) : m = n := by
  obtain ⟨es, hm⟩ := m
  obtain ⟨fs, hn⟩ := n
  subst h
  rfl

/-! ### Filtering -/

@[simp] theorem entries_filter (keep : κ → α → Bool) (m : OrderedMap κ α) :
    (m.filter keep).entries = m.entries.filter fun e => keep e.1 e.2 := rfl

theorem mem_keys_iff {m : OrderedMap κ α} {k : κ} : k ∈ m.keys ↔ ∃ v, (k, v) ∈ m.entries := by
  constructor
  · intro h
    obtain ⟨⟨k', v⟩, hmem, rfl⟩ := List.mem_map.mp h
    exact ⟨v, hmem⟩
  · rintro ⟨v, hmem⟩
    exact List.mem_map.mpr ⟨(k, v), hmem, rfl⟩

/-- A key is kept by a condition on keys when it is there and satisfies the condition. -/
theorem mem_keys_filter_iff {m : OrderedMap κ α} {keep : κ → Bool} {k : κ} :
    k ∈ (m.filter fun k _ => keep k).keys ↔ k ∈ m.keys ∧ keep k := by
  simp only [mem_keys_iff, entries_filter, List.mem_filter]
  constructor
  · rintro ⟨v, hmem, hkeep⟩
    exact ⟨⟨v, hmem⟩, hkeep⟩
  · rintro ⟨⟨v, hmem⟩, hkeep⟩
    exact ⟨v, hmem, hkeep⟩

variable [DecidableEq κ]

/-! ### Looking up -/

theorem lookup_eq_some_iff {es : List (κ × α)} (h : (es.map (·.1)).Nodup) {k : κ} {v : α} :
    lookup k es = some v ↔ (k, v) ∈ es := by
  induction es with
  | nil => simp [lookup]
  | cons e rest ih =>
    obtain ⟨k', v'⟩ := e
    obtain ⟨hfresh, hrest⟩ := List.nodup_cons.mp h
    rw [lookup, List.mem_cons, Prod.mk.injEq]
    by_cases hk : k' = k
    · subst hk
      have hnot : (k', v) ∉ rest := fun hmem => hfresh (List.mem_map.mpr ⟨_, hmem, rfl⟩)
      simp [hnot, eq_comm]
    · rw [if_neg hk, ih hrest]
      simp [Ne.symm hk]

/-- A look-up finds a value exactly when the key has it among the entries. -/
theorem get?_eq_some_iff {m : OrderedMap κ α} {k : κ} {v : α} :
    m.get? k = some v ↔ (k, v) ∈ m.entries :=
  lookup_eq_some_iff m.nodup

/-! ### Writing -/

theorem write_of_notMem {k : κ} (v : α) {es : List (κ × α)} (h : k ∉ es.map (·.1)) :
    write k v es = es ++ [(k, v)] := by
  induction es with
  | nil => rfl
  | cons e rest ih =>
    rw [List.map_cons, List.mem_cons, not_or] at h
    rw [write, if_neg (Ne.symm h.1), ih h.2, List.cons_append]

/-- A write to a fresh key adds its entry at the end. -/
theorem entries_insert_of_notMem {m : OrderedMap κ α} {k : κ} (h : k ∉ m.keys) (v : α) :
    (m.insert k v).entries = m.entries ++ [(k, v)] :=
  write_of_notMem v h

/-- Writes to fresh keys that differ add their entries at the end, in order. -/
theorem entries_insertAll {m : OrderedMap κ α} {es : List (κ × α)}
    (h : ((m.entries ++ es).map (·.1)).Nodup) : (m.insertAll es).entries = m.entries ++ es := by
  induction es generalizing m with
  | nil => exact (List.append_nil _).symm
  | cons e rest ih =>
    have hfresh : e.1 ∉ m.keys := by
      rw [List.map_append, List.nodup_append] at h
      exact fun hmem => h.2.2 _ hmem e.1 (List.mem_cons_self ..) rfl
    have hentries := entries_insert_of_notMem hfresh e.2
    show ((m.insert e.1 e.2).insertAll rest).entries = _
    rw [ih (by rwa [hentries, List.append_assoc]), hentries, List.append_assoc]
    rfl

/-- What holds of an entry that is written and of all entries before holds of all entries after. -/
theorem forall_mem_write {P : κ × α → Prop} {es : List (κ × α)} (hes : ∀ e ∈ es, P e) {k : κ}
    {v : α} (hv : P (k, v)) : ∀ e ∈ write k v es, P e := by
  induction es with
  | nil => simpa [write] using hv
  | cons e rest ih =>
    rw [List.forall_mem_cons] at hes
    rw [write]
    split <;> rw [List.forall_mem_cons]
    · rename_i hkey
      subst hkey
      exact ⟨hv, hes.2⟩
    · exact ⟨hes.1, ih hes.2⟩

theorem forall_mem_insertAll {P : κ × α → Prop} {m : OrderedMap κ α} {es : List (κ × α)}
    (hm : ∀ e ∈ m.entries, P e) (hes : ∀ e ∈ es, P e) : ∀ e ∈ (m.insertAll es).entries, P e := by
  induction es generalizing m with
  | nil => exact hm
  | cons e rest ih =>
    rw [List.forall_mem_cons] at hes
    have hinsert : ∀ e' ∈ (m.insert e.1 e.2).entries, P e' := forall_mem_write hm hes.1
    exact ih hinsert hes.2

/-- What holds of all entries of a list holds of all entries of its map. -/
theorem forall_mem_ofList {P : κ × α → Prop} {es : List (κ × α)} (h : ∀ e ∈ es, P e) :
    ∀ e ∈ (ofList es).entries, P e :=
  forall_mem_insertAll (fun _ hmem => absurd hmem List.not_mem_nil) h

/-- Writes to other keys leave a key as it is. -/
theorem get?_insertAll_of_notMem {m : OrderedMap κ α} {es : List (κ × α)} {k : κ}
    (h : k ∉ es.map (·.1)) : (m.insertAll es).get? k = m.get? k := by
  induction es generalizing m with
  | nil => rfl
  | cons e rest ih =>
    rw [List.map_cons, List.mem_cons, not_or] at h
    show ((m.insert e.1 e.2).insertAll rest).get? k = _
    rw [ih h.2, get?_insert, if_neg (Ne.symm h.1)]

/-- After writes to different keys each of them has what was written to it. -/
theorem get?_insertAll_of_mem {m : OrderedMap κ α} {es : List (κ × α)} (h : (es.map (·.1)).Nodup)
    {k : κ} {v : α} (hmem : (k, v) ∈ es) : (m.insertAll es).get? k = some v := by
  induction es generalizing m with
  | nil => cases hmem
  | cons e rest ih =>
    obtain ⟨hfresh, hrest⟩ := List.nodup_cons.mp h
    show ((m.insert e.1 e.2).insertAll rest).get? k = _
    rcases List.mem_cons.mp hmem with rfl | hmem
    · rw [get?_insertAll_of_notMem hfresh, get?_insert, if_pos rfl]
    · exact ih hrest hmem

/-- After writes to different keys a look-up finds what was written, and elsewhere what was there
before. -/
theorem get?_insertAll_eq_some_iff {m : OrderedMap κ α} {es : List (κ × α)}
    (h : (es.map (·.1)).Nodup) {k : κ} {v : α} :
    (m.insertAll es).get? k = some v ↔ (k, v) ∈ es ∨ (∀ w, (k, w) ∉ es) ∧ m.get? k = some v := by
  by_cases hmem : k ∈ es.map (·.1)
  · obtain ⟨⟨_, w⟩, hw, rfl⟩ := List.mem_map.mp hmem
    have hnot : ¬∀ w, (_, w) ∉ es := fun hall => hall w hw
    rw [get?_insertAll_of_mem h hw, or_iff_left fun hright => hnot hright.1, Option.some.injEq]
    constructor
    · rintro rfl
      exact hw
    · intro hv
      exact (Prod.mk.inj (List.inj_on_of_nodup_map h hw hv rfl)).2
  · have hnot : ∀ w, (k, w) ∉ es := fun w hw => hmem (List.mem_map.mpr ⟨_, hw, rfl⟩)
    rw [get?_insertAll_of_notMem hmem, or_iff_right (hnot v), and_iff_right hnot]

theorem contains_iff {m : OrderedMap κ α} {k : κ} : m.contains k ↔ k ∈ m.keys := by
  rw [contains, List.contains_iff_mem]

/-- Writes to different keys keep the keys that are there in their places, and add the others at the
end, in order. -/
theorem keys_insertAll {m : OrderedMap κ α} {es : List (κ × α)} (h : (es.map (·.1)).Nodup) :
    (m.insertAll es).keys = m.keys ++ (es.map (·.1)).filter fun k => !m.contains k := by
  induction es generalizing m with
  | nil => exact (List.append_nil _).symm
  | cons e rest ih =>
    obtain ⟨hfresh, hrest⟩ := List.nodup_cons.mp h
    -- The key that is written first is none of those that are still written.
    have hsame : ((rest.map (·.1)).filter fun k => !(m.insert e.1 e.2).contains k)
        = (rest.map (·.1)).filter fun k => !m.contains k := by
      refine List.filter_congr fun k hk => ?_
      have hne : k ≠ e.1 := by
        rintro rfl
        exact hfresh hk
      have hiff : (m.insert e.1 e.2).contains k ↔ m.contains k := by
        rw [contains_iff, contains_iff, keys_insert]
        split
        · exact Iff.rfl
        · simp [hne]
      rw [Bool.eq_iff_iff.mpr hiff]
    show ((m.insert e.1 e.2).insertAll rest).keys = _
    rw [ih hrest, hsame, keys_insert, List.map_cons]
    by_cases hmem : m.contains e.1
    · rw [if_pos (contains_iff.mp hmem), List.filter_cons_of_neg (by simp [hmem])]
    · rw [if_neg (hmem ∘ contains_iff.mpr), List.filter_cons_of_pos (by simp [hmem]),
        List.append_assoc]
      rfl

theorem insertAll_append (m : OrderedMap κ α) (es fs : List (κ × α)) :
    m.insertAll (es ++ fs) = (m.insertAll es).insertAll fs :=
  List.foldl_append

/-- A list of entries whose keys differ is the list of the entries of its map. -/
theorem entries_ofList {es : List (κ × α)} (h : (es.map (·.1)).Nodup) :
    (ofList es).entries = es :=
  entries_insertAll h

@[simp] theorem ofList_entries (m : OrderedMap κ α) : ofList m.entries = m :=
  eq_of_entries (entries_ofList m.nodup)

end CloudEnvelope.OrderedMap
