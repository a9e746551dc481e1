import CloudEnvelope.Proofs.Format.XmlDocument
import CloudEnvelope.Proofs.Xml.SchemaTypes

/-!
# Types of elements in XML

`XmlEnvelope.serialize_fits_iff`: an element that says which type it has holds a lexical form of
that type, unless it is written of a value that has none in the type (`Event.Misfits`).

There are two such values besides texts that no document may hold.  Integers of any size are written
for a type of 32 bits, and the offset of a time may have seconds, or more hours than a zone of XML
Schema has (`XmlEnvelope.oversized_written`).
-/

namespace CloudEnvelope

open Xml SchemaType

/-- What the event has under a name has no form in the type that is written for it. -/
inductive Event.Misfits (e : Event) (name : Text) : Prop
  /-- An integer needs more than 32 bits. -/
  | integer {v : Value} {n : Int} (hv : (name, v) ∈ e.extensions.entries)
      (hn : ExtensionValue.ofValue? v = some (.int n)) (hwide : ¬Word.holds 32 n)
  /-- The offset of the time is no zone. -/
  | time {t : DateTime} (hname : name = ContextAttribute.time.name) (ht : e.time = some t)
      (hzone : ¬(t.offset.getD .utc).IsZone)
  /-- A document may not hold the text. -/
  | text {t : Text} (ht : e.Carries name t) (hillegal : ¬IsLegal t)

namespace XmlEnvelope

variable {e : Event} {xs : List (Text × ExtensionValue)} {raw : Bytes}

/-! ### Forms -/

/-- All legal texts are forms of the types of texts. -/
theorem fits_text_iff {s : SchemaType} (hs : s = .string ∨ s = .anyURI) (t : Text) :
    Fits s.name t ↔ IsLegal t := by
  have hchars : ∀ cs, s.accepts cs ↔ IsLegal (Text.ofChars cs) := fun cs => by
    rw [isLegal_ofChars_iff]
    rcases hs with rfl | rfl <;> exact List.all_eq_true
  constructor
  · rintro ⟨s', hname, cs, rfl, h⟩
    rw [← name_inj.mp hname] at h
    exact (hchars cs).mp h
  · intro h
    obtain ⟨cs, rfl⟩ := Text.loneFree_iff.mp h.loneFree
    exact fits_ofChars_iff.mpr ((hchars cs).mpr h)

theorem fits_base64Binary (content : Bytes) :
    Fits "xs:base64Binary" (Base64.encodeString content) := by
  refine fits_ofChars_iff (s := .base64Binary) |>.mpr ?_
  rw [Base64.encodeString, String.toList_ofList]
  exact isBase64Binary_encode content

theorem fits_dateTime_iff (t : DateTime) :
    Fits "xs:dateTime" (Text.ofChars t.rfc3339) ↔ (t.offset.getD .utc).IsZone :=
  (fits_ofChars_iff (s := .dateTime)).trans (isDateTime_rfc3339 t)

/-- Of the values of an extension wide integers and illegal texts have no form in their type. -/
theorem fits_typedText_iff (x : ExtensionValue) :
    Fits (typedText x).1 (typedText x).2 ↔
      ¬((∃ n, x = .int n ∧ ¬Word.holds 32 n) ∨ ∃ t, x = .text t ∧ ¬IsLegal t) := by
  cases x with
  | bool b =>
    refine iff_of_true (fits_ofChars_iff (s := .boolean) |>.mpr ?_) (by simp)
    cases b <;> rfl
  | int n =>
    obtain ⟨cs, hcs, hn⟩ := exists_integer?_ofInt n
    rw [typedText, hcs]
    refine (fits_ofChars_iff (s := .int)).trans ?_
    rw [accepts, isInt_of_integer? hn]
    simp
  | text t =>
    refine (fits_text_iff (.inl rfl) t).trans ?_
    simp
  | bytes content => exact iff_of_true (fits_base64Binary content) (by simp)

/-! ### Misfits -/

/-- No extension of an event that is written has a forbidden name. -/
theorem not_isForbidden_of_mem_entries
    (hxs : ExtensionValue.ofEntries e.extensions.entries = .ok xs) {name : Text} {v : Value}
    (hv : (name, v) ∈ e.extensions.entries) : ¬ExtensionValue.isForbidden name := by
  obtain ⟨x, hx, hname, -⟩ := ExtensionValue.exists_mem_of_ofEntries hxs hv
  have hallowed := ExtensionValue.not_isForbidden_of_ofEntries hxs x hx
  rwa [hname] at hallowed

theorem misfits_extension_iff (hxs : ExtensionValue.ofEntries e.extensions.entries = .ok xs)
    {x : Text × ExtensionValue} (hx : x ∈ xs) :
    e.Misfits x.1 ↔
      (∃ n, x.2 = .int n ∧ ¬Word.holds 32 n) ∨ ∃ t, x.2 = .text t ∧ ¬IsLegal t := by
  obtain ⟨⟨name, v⟩, hv, hname, hread⟩ := ExtensionValue.exists_reads_of_mem hxs hx
  obtain ⟨hallowed, hvalue⟩ := ExtensionValue.ofValue_eq_ok_iff.mp hread
  rw [hname]
  -- Nothing else has this name.
  have hunique : ∀ {v' y}, (name, v') ∈ e.extensions.entries →
      ExtensionValue.ofValue? v' = some y → x.2 = y := by
    intro v' y hv' hy
    have hsame := List.inj_on_of_nodup_map e.extensions.nodup hv hv' rfl
    rw [(Prod.mk.inj hsame).2, hy] at hvalue
    exact (Option.some.inj hvalue).symm
  constructor
  · rintro (⟨hv', hn, hwide⟩ | ⟨htime, -, -⟩ | ⟨⟨a, ha, -⟩ | ⟨v', hv', ht⟩, hillegal⟩)
    · exact .inl ⟨_, hunique hv' hn, hwide⟩
    · exact absurd (htime ▸ isForbidden_attribute .time) hallowed
    · exact absurd (ha ▸ isForbidden_attribute a) hallowed
    · exact .inr ⟨_, hunique hv' ht, hillegal⟩
  · rintro (⟨n, hn, hwide⟩ | ⟨t, ht, hillegal⟩)
    · exact .integer hv (hvalue.trans (congrArg some hn)) hwide
    · exact .text (.inr ⟨v, hv, hvalue.trans (congrArg some ht)⟩) hillegal

/-- Only the time is a time, and it is nothing else. -/
theorem attribute?_eq_time_iff {a : ContextAttribute} {t : DateTime} :
    e.attribute? a = some (.time t) ↔ a = .time ∧ e.time = some t := by
  cases a <;> simp [Event.attribute?]

theorem misfits_text_iff (hxs : ExtensionValue.ofEntries e.extensions.entries = .ok xs)
    {a : ContextAttribute} {t : Text} (ha : e.attribute? a = some (.text t)) :
    e.Misfits a.name ↔ ¬IsLegal t := by
  have hforbidden := isForbidden_attribute a
  constructor
  · rintro (⟨hv, -, -⟩ | ⟨htime, ht, -⟩ | ⟨⟨b, hb, ht⟩ | ⟨v, hv, -⟩, hillegal⟩)
    · exact absurd hforbidden (not_isForbidden_of_mem_entries hxs hv)
    · have hsame := attribute?_eq_time_iff.mpr ⟨ContextAttribute.name_inj.mp htime, ht⟩
      rw [ha] at hsame
      cases hsame
    · rw [ContextAttribute.name_inj.mp hb, ha] at ht
      cases ht
      exact hillegal
    · exact absurd hforbidden (not_isForbidden_of_mem_entries hxs hv)
  · exact fun hillegal => .text (.inl ⟨a, rfl, ha⟩) hillegal

theorem misfits_time_iff (hxs : ExtensionValue.ofEntries e.extensions.entries = .ok xs)
    {t : DateTime} (ht : e.time = some t) :
    e.Misfits ContextAttribute.time.name ↔ ¬(t.offset.getD .utc).IsZone := by
  have hforbidden := isForbidden_attribute .time
  constructor
  · rintro (⟨hv, -, -⟩ | ⟨-, ht', hzone⟩ | ⟨⟨b, hb, ht'⟩ | ⟨v, hv, -⟩, -⟩)
    · exact absurd hforbidden (not_isForbidden_of_mem_entries hxs hv)
    · rw [ht] at ht'
      cases ht'
      exact hzone
    · rw [ContextAttribute.name_inj.mp hb, attribute?_eq_time_iff.mpr ⟨rfl, ht⟩] at ht'
      cases ht'
    · exact absurd hforbidden (not_isForbidden_of_mem_entries hxs hv)
  · exact .time rfl ht

theorem not_misfits_data (hxs : ExtensionValue.ofEntries e.extensions.entries = .ok xs) :
    ¬e.Misfits "data" := by
  rintro (⟨hv, -, -⟩ | ⟨htime, -, -⟩ | ⟨⟨b, hb, -⟩ | ⟨v, hv, -⟩, -⟩)
  · exact not_isForbidden_of_mem_entries hxs hv isForbidden_data
  · exact attribute_ne_data .time htime.symm
  · exact attribute_ne_data b hb
  · exact not_isForbidden_of_mem_entries hxs hv isForbidden_data

/-- Two attributes have types: one is a text, and the other is the time. -/
theorem fits_attributeLeaf_iff (hxs : ExtensionValue.ofEntries e.extensions.entries = .ok xs)
    {a : ContextAttribute} {v : AttributeValue} (ha : e.attribute? a = some v) {typeName : String}
    (htype : attributeType? a.name = some typeName) :
    Fits typeName (attributeLeaf a.name v).text ↔ ¬e.Misfits a.name := by
  cases a with
  | dataSchema =>
    cases htype
    obtain ⟨t, -, rfl⟩ := Option.map_eq_some_iff.mp ha
    rw [misfits_text_iff hxs ha, not_not]
    exact fits_text_iff (s := .anyURI) (.inr rfl) t
  | time =>
    cases htype
    obtain ⟨t, ht, rfl⟩ := Option.map_eq_some_iff.mp ha
    rw [misfits_time_iff hxs ht, not_not]
    exact fits_dateTime_iff t
  | _ => cases htype

/-! ### Main statement -/

/-- What is written of an event is an element whose children hold forms of the types that they say
they have, up to what the event has no form for. -/
theorem serialize_fits_iff (h : EventFormat.xml.serialize e = .ok raw) :
    ∃ root, root? raw = some root ∧ ∀ l ∈ root.children, ∀ a ∈ l.attributes,
      a.name = Text.ofString "xsi:type" → (Fits a.value l.text ↔ ¬e.Misfits l.name) := by
  obtain ⟨xs, hxs, hroot⟩ := root?_of_serialize h
  refine ⟨elementOf e xs, hroot, fun l hl y hy _ => ?_⟩
  rcases mem_children_iff.mp hl with ⟨a, v, ha, rfl⟩ | ⟨x, hx, rfl⟩ | hl
  · obtain ⟨typeName, htype, rfl⟩ := Option.map_eq_some_iff.mp (Option.mem_toList.mp hy)
    exact fits_attributeLeaf_iff hxs ha htype
  · obtain rfl := List.mem_singleton.mp hy
    exact (fits_typedText_iff x.2).trans (not_congr (misfits_extension_iff hxs hx).symm)
  · obtain ⟨-, rfl⟩ := mem_dataLeaf_iff.mp hl
    obtain rfl := List.mem_singleton.mp hy
    exact iff_of_true (fits_base64Binary e.data) (not_misfits_data hxs)

theorem serialize_fits_iff_markedUp :
    ∃ raw root, EventFormat.xml.serialize markedUp = .ok raw ∧ root? raw = some root ∧
      ⟨"n", [typed "xs:int"], "3"⟩ ∈ root.children ∧ Fits "xs:int" "3" := by
  have hxs : ExtensionValue.ofEntries markedUp.extensions.entries
      = .ok [("a-b", .text "]]>"), ("n", .int 3)] := rfl
  obtain ⟨raw, hraw⟩ : ∃ raw, EventFormat.xml.serialize markedUp = .ok raw := by
    rw [← Except.isSome_toOption_iff]
    decide +kernel
  obtain ⟨root, hroot, hfits⟩ := serialize_fits_iff hraw
  obtain ⟨ys, hys, hroot'⟩ := root?_of_serialize hraw
  obtain rfl := Except.ok.inj (hxs.symm.trans hys)
  obtain rfl := Option.some.inj (hroot.symm.trans hroot')
  have hmem : leafOf ("n", .int 3) ∈ (elementOf markedUp
      [("a-b", .text "]]>"), ("n", .int 3)]).children :=
    mem_children_iff.mpr (.inr (.inl ⟨_, List.mem_cons_of_mem _ List.mem_cons_self, rfl⟩))
  have hnot : ¬markedUp.Misfits "n" := by
    rw [misfits_extension_iff hxs (x := ("n", .int 3)) (List.mem_cons_of_mem _ List.mem_cons_self)]
    rintro (⟨n, ⟨⟩, hwide⟩ | ⟨t, ⟨⟩, -⟩)
    exact hwide rfl
  exact ⟨raw, _, hraw, hroot, hmem, (hfits _ hmem _ List.mem_cons_self rfl).mpr hnot⟩

/-- An event with an integer of 33 bits and a time whose offset has seconds. -/
def oversized : Event :=
  { about "s" with
    time := bufferedMidnight.time.map fun t => { t with offset := some ⟨19815000000, by decide⟩ }
    extensions := .ofList [("n", .int 2147483648)] }

/-- Both are written under types that do not have them. -/
theorem oversized_written :
    ∃ raw root, EventFormat.xml.serialize oversized = .ok raw ∧ root? raw = some root ∧
      ⟨"n", [typed "xs:int"], "2147483648"⟩ ∈ root.children ∧ ¬Fits "xs:int" "2147483648" ∧
      ⟨"time", [typed "xs:dateTime"], "2023-06-15T00:00:00+05:30:15"⟩ ∈ root.children ∧
      ¬Fits "xs:dateTime" "2023-06-15T00:00:00+05:30:15" := by
  have hxs : ExtensionValue.ofEntries oversized.extensions.entries
      = .ok [("n", .int 2147483648)] := rfl
  obtain ⟨raw, hraw⟩ : ∃ raw, EventFormat.xml.serialize oversized = .ok raw := by
    rw [← Except.isSome_toOption_iff]
    decide +kernel
  obtain ⟨ys, hys, hroot⟩ := root?_of_serialize hraw
  obtain rfl := Except.ok.inj (hxs.symm.trans hys)
  refine ⟨raw, _, hraw, hroot, ?_, ?_, ?_, ?_⟩
  · exact mem_children_iff.mpr (.inr (.inl ⟨("n", .int 2147483648), List.mem_cons_self, rfl⟩))
  · exact fun h => absurd (fits_ofChars_iff (s := .int) |>.mp h) (by decide)
  · exact mem_children_iff.mpr (.inl ⟨.time, _, rfl, by decide +kernel⟩)
  · exact fun h => absurd (fits_ofChars_iff (s := .dateTime) |>.mp h) (by decide)

end XmlEnvelope

end CloudEnvelope
