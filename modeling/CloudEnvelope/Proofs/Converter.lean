import CloudEnvelope.Proofs.Format.JsonMembers

/-!
# Binary mode

In binary mode the attributes and extensions of an event are written as headers, to the headers that
the converter is given.  They are written under names that keep them apart
(`MessageConverter.nodup_framed`), as long as the start of their names keeps them apart from the
content type, and so none of them replaces another: `MessageConverter.convert_binary_overlays` says
what all headers of the message are, and in which order.  An integer of too many digits has no text
(`MessageConverter.towering_refused`).
-/

namespace CloudEnvelope

open JsonEnvelope (attributeEntries extensionEntries attributeNames)

/-- Binary mode writes a text under a name: that of an attribute or of an extension. -/
inductive Event.Frames (e : Event) : Text → Text → Prop
  | text {name : String} {t : Text} (h : (name, .text t) ∈ e.attributes)
      (hname : name ≠ "datacontenttype") : Frames e name t
  | time {name : String} {t : DateTime} (h : (name, .time t) ∈ e.attributes) :
      Frames e name (Text.ofChars t.rfc3339)
  | extension {name : Text} {v : Value} {x : ExtensionValue} (h : (name, v) ∈ e.extensions.entries)
      (hx : ExtensionValue.ofValue name v = .ok x) : Frames e name x.headerText

variable {e : Event}

/-- Only the time is not a text. -/
theorem Event.eq_of_time_mem {name : String} {t : DateTime} (h : (name, .time t) ∈ e.attributes) :
    name = "time" := by
  simp [attributes] at h
  exact h.2.symm

theorem Event.mem_attributes_contentType_iff {t : Text} :
    ("datacontenttype", .text t) ∈ e.attributes ↔ e.dataContentType = some t := by
  simp [attributes]

/-- What is written under a name is an attribute or an extension of this name. -/
theorem Event.Frames.name_mem {name t : Text} (h : e.Frames name t) :
    name ∈ attributeNames.map Text.ofString ∨ name ∈ e.extensions.keys := by
  have hattribute : ∀ a ∈ e.attributes, Text.ofString a.1 ∈ attributeNames.map Text.ofString := by
    intro a ha
    exact List.mem_map.mpr ⟨a.1,
      (JsonEnvelope.sublist_attributeNames e).subset (List.mem_map.mpr ⟨a, ha, rfl⟩), rfl⟩
  cases h with
  | text h => exact .inl (hattribute _ h)
  | time h => exact .inl (hattribute _ h)
  | extension h => exact .inr (OrderedMap.mem_keys_iff.mpr ⟨_, h⟩)

namespace MessageConverter

variable {start : Text} {xs : List (Text × ExtensionValue)}

/-! ### The headers of an event -/

/-- The headers of the attributes and extensions of an event, in order. -/
def framed (start : Text) (e : Event) (xs : List (Text × ExtensionValue)) : List (Text × Value) :=
  e.attributes.map (attributeHeader start)
    ++ xs.map fun x => (start ++ x.1, .text x.2.headerText)

theorem binaryHeaders_eq (start : Text) (e : Event) (xs : List (Text × ExtensionValue))
    (headers : Headers) :
    binaryHeaders start e xs headers = headers.insertAll (framed start e xs) :=
  (OrderedMap.insertAll_append headers _ _).symm

theorem attributeHeader_text {name : String} (hname : name ≠ "datacontenttype") (t : Text) :
    attributeHeader start (name, .text t) = (start ++ Text.ofString name, .text t) := by
  simp [attributeHeader, hname]

/-- The name of the header for an attribute or extension of a name. -/
def headerName (start name : Text) : Text :=
  if name = Text.ofString "datacontenttype" then contentTypeHeader else start ++ name

theorem headerName_inj (hstart : ∀ name, start ++ name ≠ contentTypeHeader) :
    Function.Injective (headerName start) := by
  intro name name' h
  unfold headerName at h
  split_ifs at h with hname hname' hname'
  · rw [hname, hname']
  · exact absurd h.symm (hstart name')
  · exact absurd h (hstart name)
  · exact List.append_cancel_left h

/-- An extension is not named as the content type. -/
theorem ne_contentType_of_ofEntries (hxs : ExtensionValue.ofEntries e.extensions.entries = .ok xs)
    {x : Text × ExtensionValue} (hx : x ∈ xs) : x.1 ≠ Text.ofString "datacontenttype" := by
  intro hname
  apply ExtensionValue.not_isForbidden_of_ofEntries hxs x hx
  rw [hname]
  decide

theorem map_fst_framed (hxs : ExtensionValue.ofEntries e.extensions.entries = .ok xs) :
    (framed start e xs).map (·.1)
      = ((attributeEntries e ++ extensionEntries xs).map (·.1)).map (headerName start) := by
  have hattributes : ∀ a ∈ e.attributes, (attributeHeader start a).1 = headerName start a.1 := by
    rintro ⟨name, _ | t⟩ ha
    · simp [attributeHeader, headerName, Text.ofString_inj]
    · rw [Event.eq_of_time_mem ha]
      simp [attributeHeader, headerName, Text.ofString_inj]
  have hextensions : ∀ x ∈ xs, start ++ x.1 = headerName start x.1 := by
    intro x hx
    rw [headerName, if_neg (ne_contentType_of_ofEntries hxs hx)]
  rw [framed, List.map_append, List.map_append, List.map_append,
    JsonEnvelope.map_fst_attributeEntries, JsonEnvelope.map_fst_extensionEntries, List.map_map,
    List.map_map, List.map_map, List.map_map, List.map_map]
  exact congrArg₂ (· ++ ·) (List.map_congr_left hattributes) (List.map_congr_left hextensions)

/-- The headers of an event do not replace each other, if the content type is told apart. -/
theorem nodup_framed (hstart : ∀ name, start ++ name ≠ contentTypeHeader)
    (hxs : ExtensionValue.ofEntries e.extensions.entries = .ok xs) :
    ((framed start e xs).map (·.1)).Nodup := by
  have hnames : ∀ x ∈ xs, JsonEnvelope.isMemberName x.1 = false := by
    intro x hx
    rw [JsonEnvelope.isMemberName_eq]
    exact Bool.eq_false_iff.mpr (ExtensionValue.not_isForbidden_of_ofEntries hxs x hx)
  rw [map_fst_framed hxs]
  exact (JsonEnvelope.nodup_attributes_extensions hxs hnames).map (headerName_inj hstart)

/-- A header of an event is what binary mode writes under a name, behind the start, or the content
type of the event. -/
theorem mem_framed_iff (hxs : ExtensionValue.ofEntries e.extensions.entries = .ok xs) {key : Text}
    {v : Value} : (key, v) ∈ framed start e xs ↔
      (∃ name t, e.Frames name t ∧ start ++ name = key ∧ v = .text t) ∨
        contentTypeHeader = key ∧ ∃ t, e.dataContentType = some t ∧ v = .text t := by
  simp only [framed, List.mem_append, List.mem_map]
  constructor
  · rintro (⟨⟨name, t | t⟩, ha, h⟩ | ⟨x, hx, h⟩)
    · by_cases hname : name = "datacontenttype"
      · subst hname
        cases h
        exact .inr ⟨rfl, t, Event.mem_attributes_contentType_iff.mp ha, rfl⟩
      · rw [attributeHeader_text hname] at h
        cases h
        exact .inl ⟨_, t, .text ha hname, rfl, rfl⟩
    · obtain rfl := Event.eq_of_time_mem ha
      cases h
      exact .inl ⟨_, _, .time ha, rfl, rfl⟩
    · cases h
      obtain ⟨⟨_, v⟩, hv, rfl, hvalue⟩ := ExtensionValue.exists_reads_of_mem hxs hx
      exact .inl ⟨_, _, .extension hv hvalue, rfl, rfl⟩
  · rintro (⟨name, t, h, rfl, rfl⟩ | ⟨rfl, t, h, rfl⟩)
    · cases h with
      | text h hname => exact .inl ⟨_, h, attributeHeader_text hname t⟩
      | time h => exact .inl ⟨_, h, rfl⟩
      | extension h hx =>
        obtain ⟨⟨_, y⟩, hy, rfl, hvalue⟩ := ExtensionValue.exists_mem_of_ofEntries hxs h
        cases hx.symm.trans hvalue
        exact .inr ⟨_, hy, rfl⟩
    · exact .inl ⟨_, Event.mem_attributes_contentType_iff.mpr h, rfl⟩

/-- The headers behind the start are those of what binary mode writes under a name. -/
theorem mem_framed_append_iff (hstart : ∀ name, start ++ name ≠ contentTypeHeader)
    (hxs : ExtensionValue.ofEntries e.extensions.entries = .ok xs) {name : Text} {v : Value} :
    (start ++ name, v) ∈ framed start e xs ↔ ∃ t, e.Frames name t ∧ v = .text t := by
  rw [mem_framed_iff hxs]
  constructor
  · rintro (⟨name', t, h, hkey, rfl⟩ | ⟨hkey, -⟩)
    · obtain rfl := List.append_cancel_left hkey
      exact ⟨t, h, rfl⟩
    · exact absurd hkey.symm (hstart name)
  · rintro ⟨t, h, rfl⟩
    exact .inl ⟨name, t, h, rfl, rfl⟩

theorem forall_notMem_framed_iff (hstart : ∀ name, start ++ name ≠ contentTypeHeader)
    (hxs : ExtensionValue.ofEntries e.extensions.entries = .ok xs) {name : Text} :
    (∀ v, (start ++ name, v) ∉ framed start e xs) ↔ ∀ t, ¬e.Frames name t := by
  simp only [mem_framed_append_iff hstart hxs, not_exists, not_and]
  exact ⟨fun h t hframes => h _ t hframes rfl, fun h _ t hframes => absurd hframes (h t)⟩

/-- The header of the content type is that of the event's, if it has one. -/
theorem mem_framed_contentType_iff (hstart : ∀ name, start ++ name ≠ contentTypeHeader)
    (hxs : ExtensionValue.ofEntries e.extensions.entries = .ok xs) {v : Value} :
    (contentTypeHeader, v) ∈ framed start e xs ↔
      ∃ t, e.dataContentType = some t ∧ v = .text t := by
  rw [mem_framed_iff hxs]
  constructor
  · rintro (⟨name, -, -, hkey, -⟩ | ⟨-, h⟩)
    · exact absurd hkey (hstart name)
    · exact h
  · intro h
    exact .inr ⟨rfl, h⟩

/-- Behind a start that the content type does not begin with, no attribute and no extension takes
the name of the content type. -/
theorem append_ne_contentType (hstart : ¬start <+: contentTypeHeader) (name : Text) :
    start ++ name ≠ contentTypeHeader :=
  fun h => hstart ⟨name, h⟩

theorem defaultPrefix_append_ne (name : Text) : defaultPrefix ++ name ≠ contentTypeHeader :=
  append_ne_contentType (by decide) name

/-! ### All headers -/

/-- The keys of the headers that binary mode writes for an event, in order. -/
def writtenKeys (start : Text) (e : Event) : List Text :=
  (e.attributeMap.keys ++ e.extensions.keys).map (headerName start)

/-- The headers of an event lie over other headers: each attribute, the content type and each
extension is found under its own key with its text, every other key keeps its value, and the keys
that are new come behind those that are there. -/
structure Overlays (start : Text) (e : Event) (headers out : Headers) : Prop where
  attributes : ∀ a ∈ e.attributes, a.1 ≠ "datacontenttype" →
    out.get? (start ++ Text.ofString a.1) = some (.text a.2.form)
  contentType : ∀ t, e.dataContentType = some t → out.get? contentTypeHeader = some (.text t)
  extensions : ∀ x ∈ e.extensions.entries, ∃ t, ExtensionValue.textOf x.1 x.2 = .ok t ∧
    out.get? (start ++ x.1) = some (.text t)
  others : ∀ key ∉ writtenKeys start e, out.get? key = headers.get? key
  nodup : (writtenKeys start e).Nodup
  keys : out.keys = headers.keys ++ (writtenKeys start e).filter fun key => !headers.contains key

theorem map_fst_framed_eq_writtenKeys
    (hxs : ExtensionValue.ofEntries e.extensions.entries = .ok xs) :
    (framed start e xs).map (·.1) = writtenKeys start e := by
  rw [map_fst_framed hxs, List.map_append, JsonEnvelope.map_fst_extensionEntries,
    ExtensionValue.map_fst_of_ofEntries hxs, ← JsonEnvelope.keys_attributeMap]
  rfl

/-- What is written of an attribute other than the content type. -/
theorem mem_framed_of_attribute {a : String × AttributeValue} (ha : a ∈ e.attributes)
    (hname : a.1 ≠ "datacontenttype") :
    (start ++ Text.ofString a.1, .text a.2.form) ∈ framed start e xs := by
  refine List.mem_append_left _ (List.mem_map.mpr ⟨a, ha, ?_⟩)
  obtain ⟨name, t | t⟩ := a
  · exact attributeHeader_text hname t
  · rfl

theorem overlays_framed (hstart : ∀ name, start ++ name ≠ contentTypeHeader)
    (hxs : ExtensionValue.ofEntries e.extensions.entries = .ok xs)
    (hspelled : ∀ x ∈ xs, x.2.isSpelled) (headers : Headers) :
    Overlays start e headers (headers.insertAll (framed start e xs)) := by
  have hnodup := nodup_framed hstart hxs
  have hkeys : (framed start e xs).map (·.1) = writtenKeys start e :=
    map_fst_framed_eq_writtenKeys hxs
  constructor
  case attributes =>
    exact fun a ha hname =>
      OrderedMap.get?_insertAll_of_mem hnodup (mem_framed_of_attribute ha hname)
  case contentType =>
    exact fun t ht => OrderedMap.get?_insertAll_of_mem hnodup
      ((mem_framed_contentType_iff hstart hxs).mpr ⟨t, ht, rfl⟩)
  case extensions =>
    intro x hx
    obtain ⟨y, hy, hname, hvalue⟩ := ExtensionValue.exists_mem_of_ofEntries hxs hx
    have hmem : (start ++ x.1, .text y.2.headerText) ∈ framed start e xs := by
      rw [← hname]
      exact List.mem_append_right _ (List.mem_map.mpr ⟨y, hy, rfl⟩)
    exact ⟨y.2.headerText, ExtensionValue.textOf_eq_ok_iff.mpr ⟨y.2, hvalue, hspelled y hy, rfl⟩,
      OrderedMap.get?_insertAll_of_mem hnodup hmem⟩
  case others =>
    intro key hkey
    rw [← hkeys] at hkey
    exact OrderedMap.get?_insertAll_of_notMem hkey
  case nodup =>
    rw [← hkeys]
    exact hnodup
  case keys =>
    rw [← hkeys]
    exact OrderedMap.keys_insertAll hnodup

/-- Binary mode gives a message of the data of an event, with the headers of the event laid over the
headers that it is given, as long as its extensions are accepted and none of them is an integer of
too many digits. -/
theorem convert_binary_overlays (hstart : ¬start <+: contentTypeHeader)
    (hextensions : ∀ x ∈ e.extensions.entries, ∃ y, ExtensionValue.ofValue x.1 x.2 = .ok y)
    (hdigits : ExtensionValue.Spelled e.extensions.entries) (headers : Headers) :
    ∃ out, (binary start).convert e headers = .ok (some ⟨.bytes e.data, out⟩) ∧
      Overlays start e headers out := by
  obtain ⟨xs, hxs⟩ := ExtensionValue.exists_ofEntries_iff.mpr hextensions
  have hspelled : ∀ x ∈ xs, x.2.isSpelled := (ExtensionValue.forall_isSpelled_iff hxs).mpr hdigits
  refine ⟨binaryHeaders start e xs headers,
    convert_binary_eq_ok_iff.mpr ⟨xs, hxs, hspelled, rfl⟩, ?_⟩
  rw [binaryHeaders_eq]
  exact overlays_framed (append_ne_contentType hstart) hxs hspelled headers

/-- An event with a time, a content type and an extension. -/
def labelled : Event where
  specversion := Event.currentVersion
  id := "label"
  source := "urn:labels"
  type := "labelled"
  time := some (.midnight ⟨1987, 11, 23, by decide, by decide⟩)
  dataContentType := some "text/plain"
  dataSchema := none
  subject := none
  data := [255]
  extensions := ⟨[("flag", .bool true)], by decide⟩
  id_ne := by decide
  source_ne := by decide
  type_ne := by decide

/-- Headers two of which an event has as well, and one that only looks as if it had it. -/
def inbound : Headers :=
  ⟨[("content-type", .text "text/html"), ("b", .null), ("ce-id", .text "0"),
    ("ce-datacontenttype", .text "text/html")], by decide⟩

theorem convert_binary_overlays_inbound :
    ¬defaultPrefix <+: contentTypeHeader ∧
      (∀ x ∈ labelled.extensions.entries, ∃ y, ExtensionValue.ofValue x.1 x.2 = .ok y) ∧
      ExtensionValue.Spelled labelled.extensions.entries ∧
      ∃ out, (binary defaultPrefix).convert labelled inbound = .ok (some ⟨.bytes [255], out⟩) ∧
        Overlays defaultPrefix labelled inbound out ∧
        out.keys = ["content-type", "b", "ce-id", "ce-datacontenttype", "ce-specversion",
          "ce-source", "ce-type", "ce-time", "ce-flag"] ∧
        out.get? "content-type" = some (.text "text/plain") ∧
        out.get? "ce-datacontenttype" = some (.text "text/html") := by
  have hstart : ¬defaultPrefix <+: contentTypeHeader := by decide
  have hextensions : ∀ x ∈ labelled.extensions.entries,
      ∃ y, ExtensionValue.ofValue x.1 x.2 = .ok y :=
    List.forall_mem_singleton.mpr ⟨.bool true, rfl⟩
  have hdigits : ExtensionValue.Spelled labelled.extensions.entries :=
    List.forall_mem_singleton.mpr nofun
  obtain ⟨out, hout, h⟩ := convert_binary_overlays hstart hextensions hdigits inbound
  refine ⟨hstart, hextensions, hdigits, out, hout, h, ?_, h.contentType _ rfl, ?_⟩
  · rw [h.keys]
    decide +kernel
  · rw [h.others _ (by decide +kernel)]
    rfl

/-- The least number with a digit too many. -/
def tower : Int := Int.ofNat (Nat.pow 10 Text.digitLimit)

theorem not_canSpell_tower : ¬Text.canSpell tower :=
  fun h => Nat.lt_irrefl _ ((Text.canSpell_pow_iff _).mp h)

/-- An event whose extension is a number with a digit too many. -/
def towering : Event :=
  { AvroEnvelope.eveOfEpoch with
    time := none
    data := []
    extensions := ⟨[("n", .int tower)], by decide⟩ }

/-- The extension is accepted, and is refused all the same when its text is to be written. -/
theorem towering_refused :
    ¬defaultPrefix <+: contentTypeHeader ∧
      (∀ x ∈ towering.extensions.entries, ∃ y, ExtensionValue.ofValue x.1 x.2 = .ok y) ∧
      (binary defaultPrefix).convert towering .empty = .error (.fault .tooManyDigits) := by
  refine ⟨by decide, List.forall_mem_singleton.mpr ⟨_, rfl⟩, ?_⟩
  have htext : ExtensionValue.textOf "n" (.int tower) = .error (.fault .tooManyDigits) :=
    ExtensionValue.textOf_eq_error_iff.mpr
      (.inr ⟨.int tower, rfl, Bool.eq_false_iff.mpr not_canSpell_tower, rfl⟩)
  simp only [binary, frameBinary, towering, extensionHeaders, htext]
  rfl

end MessageConverter

end CloudEnvelope
