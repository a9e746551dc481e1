import CloudEnvelope.Format.Registry
import CloudEnvelope.Proofs.Except
import CloudEnvelope.Proofs.OrderedMap

/-!
# What registries hold and serve

A list makes a registry exactly when it holds formats alone and no two of them declare the same
media type, up to normalisation (`FormatRegistry.ofList_eq_ok_iff`).  The registry then holds these
formats in order, and a request is served exactly when one of them serves it
(`FormatRegistry.has_iff`), and then by one of them (`FormatRegistry.mem_of_get`).
-/

namespace CloudEnvelope

namespace EventFormat

/-- The media type that a format is registered under. -/
def key (f : EventFormat) : Text := MediaType.normalize f.mediaType

/-- The format serves a request: it is of the type that is asked for, or this is a plain type and
the format is of a structured type that is written in its syntax. -/
def Serves (f : EventFormat) (mediaType : Text) : Prop :=
  f.key = MediaType.normalize mediaType ∨
    FormatRegistry.isPlain (MediaType.normalize mediaType) ∧
      MediaType.structured? f.key = some (MediaType.split (MediaType.normalize mediaType))

/-- The entry of a format in a registry. -/
def entry (f : EventFormat) : Text × EventFormat := (f.key, f)

theorem map_fst_entry (fs : List EventFormat) : (fs.map entry).map (·.1) = fs.map key := by
  rw [List.map_map]
  rfl

end EventFormat

namespace FormatRegistry

open EventFormat

variable {formats : List (Supplied EventFormat)} {fs : List EventFormat} {r r' : FormatRegistry}

/-- Registries that hold the same formats are equal. -/
theorem eq_of_entries (h : r.formats.entries = r'.formats.entries) : r = r' := by
  obtain ⟨m⟩ := r
  obtain ⟨m'⟩ := r'
  exact congrArg mk (OrderedMap.eq_of_entries h)

/-! ### Registration -/

/-- A format is added at the end, unless its media type is taken. -/
theorem register_component_iff {f : EventFormat} :
    r.register (.component f) = .ok r' ↔
      f.key ∉ r.mediaTypes ∧ r'.formats.entries = r.formats.entries ++ [f.entry] := by
  have htaken : r.formats.contains f.key ↔ f.key ∈ r.mediaTypes := by
    simp [OrderedMap.contains, mediaTypes]
  simp only [register]
  split
  · rename_i hcontains
    simp [htaken.mp hcontains]
  · rename_i hcontains
    have hfresh : f.key ∉ r.mediaTypes := fun hmem => hcontains (htaken.mpr hmem)
    have hentries : (r.formats.insert f.key f).entries = r.formats.entries ++ [f.entry] :=
      OrderedMap.entries_insert_of_notMem hfresh f
    constructor
    · rintro ⟨⟩
      exact ⟨hfresh, hentries⟩
    · rintro ⟨-, h⟩
      exact congrArg Except.ok (eq_of_entries (hentries.trans h.symm))

/-- Formats that are registered one after another are held behind those before, in order. -/
theorem foldlM_register_eq_ok_iff :
    formats.foldlM register r = .ok r' ↔ ∃ fs : List EventFormat,
      formats = fs.map .component ∧ (r.mediaTypes ++ fs.map key).Nodup ∧
        r'.formats.entries = r.formats.entries ++ fs.map entry := by
  induction formats generalizing r with
  | nil =>
    rw [List.foldlM_nil]
    constructor
    · rintro ⟨⟩
      refine ⟨[], rfl, ?_, (List.append_nil _).symm⟩
      rw [List.map_nil, List.append_nil]
      exact r'.formats.nodup
    · rintro ⟨fs, hfs, -, h⟩
      rw [List.map_eq_nil_iff.mp hfs.symm, List.map_nil, List.append_nil] at h
      exact congrArg Except.ok (eq_of_entries h.symm)
  | cons x rest ih =>
    rw [List.foldlM_cons, Except.bind_eq_ok_iff]
    constructor
    · rintro ⟨r₁, hregister, hrest⟩
      cases x with
      | foreign typeName => cases hregister
      | component f =>
        obtain ⟨hfresh, hentries⟩ := register_component_iff.mp hregister
        obtain ⟨fs, rfl, hnodup, h⟩ := ih.mp hrest
        refine ⟨f :: fs, rfl, ?_, ?_⟩
        · -- The keys of the registry after the first step are the earlier ones and the new one.
          rwa [mediaTypes, OrderedMap.keys, hentries, List.map_append, List.append_assoc] at hnodup
        · rw [h, hentries, List.append_assoc]
          rfl
    · rintro ⟨fs, hfs, hnodup, h⟩
      obtain ⟨f, fs, rfl, rfl, rfl⟩ := List.map_eq_cons_iff.mp hfs.symm
      have hfresh : f.key ∉ r.mediaTypes := fun hmem =>
        (List.nodup_append.mp hnodup).2.2 _ hmem _ List.mem_cons_self rfl
      obtain ⟨m, hm⟩ : ∃ m : OrderedMap Text EventFormat,
          m.entries = r.formats.entries ++ [f.entry] :=
        ⟨_, OrderedMap.entries_insert_of_notMem hfresh f⟩
      refine ⟨⟨m⟩, register_component_iff.mpr ⟨hfresh, hm⟩, ih.mpr ⟨fs, rfl, ?_, ?_⟩⟩
      · rwa [mediaTypes, OrderedMap.keys, hm, List.map_append, List.append_assoc]
      · rw [h, hm, List.append_assoc]
        rfl

/-- A list makes a registry exactly when it holds formats alone, of different media types. -/
theorem ofList_eq_ok_iff :
    ofList formats = .ok r ↔ ∃ fs : List EventFormat, formats = fs.map .component ∧
      (fs.map key).Nodup ∧ r.formats.entries = fs.map entry :=
  foldlM_register_eq_ok_iff

/-! ### Requests -/

/-- A request is served exactly when one of the registered formats serves it. -/
theorem has_iff (h : r.formats.entries = fs.map entry) {mediaType : Text} :
    r.has mediaType ↔ ∃ f ∈ fs, f.Serves mediaType := by
  have hexact : (r.formats.get? (MediaType.normalize mediaType)).isSome ↔
      ∃ f ∈ fs, f.key = MediaType.normalize mediaType := by
    simp only [Option.isSome_iff_exists, OrderedMap.get?_eq_some_iff, h, List.mem_map, entry,
      Prod.mk.injEq]
    constructor
    · rintro ⟨_, f, hf, hkey, rfl⟩
      exact ⟨f, hf, hkey⟩
    · rintro ⟨f, hf, hkey⟩
      exact ⟨f, f, hf, hkey, rfl⟩
  have hplain : (r.structured? (MediaType.normalize mediaType)).isSome ↔
      ∃ f ∈ fs, isPlain (MediaType.normalize mediaType) ∧ MediaType.structured? f.key
        = some (MediaType.split (MediaType.normalize mediaType)) := by
    rw [structured?, h]
    split
    · rename_i hplain
      simp [hplain, entry]
    · rename_i hplain
      simp [hplain]
  rw [has, find?, Option.isSome_or, Bool.or_eq_true, hexact, hplain, ← exists_or]
  simp only [← and_or_left, Serves]

/-- A request has a format exactly when it is served. -/
theorem exists_get_iff {mediaType : Text} : (∃ f, r.get mediaType = .ok f) ↔ r.has mediaType := by
  rw [get, has]
  cases r.find? (MediaType.normalize mediaType) <;> simp

theorem eq_of_get_eq_error {mediaType : Text} {failure : Failure}
    (h : r.get mediaType = .error failure) :
    failure = .unsupportedFormat mediaType r.mediaTypes := by
  rw [get] at h
  split at h <;> cases h
  rfl

/-- The format that serves a request is one of the registered formats. -/
theorem mem_of_get (h : r.formats.entries = fs.map entry) {mediaType : Text} {f : EventFormat}
    (hget : r.get mediaType = .ok f) : f ∈ fs := by
  have hmem : ∃ key, (key, f) ∈ r.formats.entries := by
    rw [get] at hget
    split at hget
    · rename_i hfind
      cases hget
      rcases Option.or_eq_some_iff.mp hfind with hexact | ⟨-, hplain⟩
      · exact ⟨_, OrderedMap.get?_eq_some_iff.mp hexact⟩
      · rw [structured?] at hplain
        split at hplain
        · obtain ⟨x, hx, rfl⟩ := Option.map_eq_some_iff.mp hplain
          exact ⟨x.1, List.mem_of_find?_eq_some hx⟩
        · cases hplain
    · cases hget
  obtain ⟨key, hmem⟩ := hmem
  rw [h] at hmem
  obtain ⟨g, hg, ⟨⟩⟩ := List.mem_map.mp hmem
  exact hg

/-- The first format is there when any is, and is one of them. -/
theorem exists_first (h : r.formats.entries = fs.map entry) (hne : fs ≠ []) :
    ∃ f ∈ fs, r.first = .ok f := by
  cases fs with
  | nil => exact absurd rfl hne
  | cons f rest =>
    refine ⟨f, List.mem_cons_self, ?_⟩
    rw [first, h]
    rfl

end FormatRegistry

end CloudEnvelope
