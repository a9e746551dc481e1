import CloudEnvelope.Format.JsonEnvelope
import CloudEnvelope.Proofs.Extension
import CloudEnvelope.Proofs.Json.Value
import CloudEnvelope.Proofs.OrderedMap

/-!
# The members of an event's object

`JsonEnvelope.entries_of_document`: the members are the attributes, then the extensions, then the
data, and none replaces another, because extensions may not have the names of the others.  So each
member is found under its name (`JsonEnvelope.Describes`).
-/

namespace CloudEnvelope.JsonEnvelope

/-! ### Names -/

/-- The names of all attributes that an event can have, in order. -/
def attributeNames : List String :=
  ["specversion", "id", "source", "type", "time", "datacontenttype", "dataschema", "subject"]

/-- The names of the two members that data can stand in. -/
def dataNames : List String := ["data", "data_base64"]

theorem memberNames_eq : memberNames = attributeNames ++ dataNames := rfl

theorem nodup_memberNames : (attributeNames ++ dataNames).Nodup := by decide

theorem isMemberName_ofString {name : String} : isMemberName name ↔ name ∈ memberNames := by
  simp only [isMemberName, List.any_eq_true, beq_iff_eq, Text.ofString_inj, exists_eq_right]

/-- The name of an attribute is one of a member, but not one of the data. -/
theorem isMemberName_of_attribute {name : String} (h : name ∈ attributeNames) :
    isMemberName name ∧ name ∉ dataNames := by
  obtain ⟨-, -, hdisjoint⟩ := List.nodup_append.mp nodup_memberNames
  refine ⟨?_, fun hdata => hdisjoint name h name hdata rfl⟩
  rw [isMemberName_ofString, memberNames_eq]
  exact List.mem_append_left _ h

theorem isMemberName_of_data {name : String} (h : name ∈ dataNames) : isMemberName name := by
  rw [isMemberName_ofString, memberNames_eq]
  exact List.mem_append_right _ h

/-! ### Entries -/

/-- The members of the attributes, in order. -/
def attributeEntries (e : Event) : List (Text × Member) :=
  e.attributes.map fun a => ((a.1 : Text), Member.ofAttribute a.2)

/-- The member of the data, unless it is empty. -/
def dataEntries (e : Event) : List (Text × Member) :=
  if e.data.isEmpty then []
  else [((dataMember e.dataContentType e.data).1, .json (dataMember e.dataContentType e.data).2)]

/-- The members of extensions, in order. -/
def extensionEntries (xs : List (Text × ExtensionValue)) : List (Text × Member) :=
  xs.map fun x => (x.1, .ofExtension x.2)

theorem map_fst_extensionEntries (xs : List (Text × ExtensionValue)) :
    (extensionEntries xs).map (·.1) = xs.map (·.1) := by
  rw [extensionEntries, List.map_map]
  rfl

theorem sublist_optional {α : Type} (o : Option α) (name : String) (f : α → AttributeValue) :
    ((o.map fun a => (name, f a)).toList.map (·.1)).Sublist [name] := by
  cases o with
  | none => exact List.nil_sublist _
  | some a => exact List.Sublist.refl _

theorem sublist_attributeNames (e : Event) : (e.attributes.map (·.1)).Sublist attributeNames := by
  simp only [Event.attributes, List.map_append]
  exact ((((List.Sublist.refl ["specversion", "id", "source", "type"]).append
    (sublist_optional e.time "time" .time)).append
    (sublist_optional e.dataContentType "datacontenttype" .text)).append
    (sublist_optional e.dataSchema "dataschema" .text)).append
    (sublist_optional e.subject "subject" .text)

theorem map_fst_attributeEntries (e : Event) :
    (attributeEntries e).map (·.1) = (e.attributes.map (·.1)).map Text.ofString := by
  simp only [attributeEntries, List.map_map]
  rfl

theorem nodup_attributeEntries (e : Event) : ((attributeEntries e).map (·.1)).Nodup := by
  rw [map_fst_attributeEntries]
  obtain ⟨hnodup, -, -⟩ := List.nodup_append.mp nodup_memberNames
  exact List.Pairwise.map Text.ofString (fun _ _ hne heq => hne (Text.ofString_inj.mp heq))
    (hnodup.sublist (sublist_attributeNames e))

theorem exists_attributeName {e : Event} {name : Text} (h : name ∈ (attributeEntries e).map (·.1)) :
    ∃ s ∈ attributeNames, name = Text.ofString s := by
  rw [map_fst_attributeEntries] at h
  obtain ⟨s, hs, rfl⟩ := List.mem_map.mp h
  exact ⟨s, (sublist_attributeNames e).subset hs, rfl⟩

/-- The data stands in one of two members. -/
theorem dataMember_name (contentType : Option Text) (data : Bytes) :
    ∃ s ∈ dataNames, (dataMember contentType data).1 = Text.ofString s := by
  have htext : "data" ∈ dataNames := List.mem_cons_self
  have hencoded : "data_base64" ∈ dataNames := List.mem_cons_of_mem _ List.mem_cons_self
  simp only [dataMember]
  split
  · split
    · exact ⟨_, hencoded, rfl⟩
    · split <;> exact ⟨_, htext, rfl⟩
  · exact ⟨_, hencoded, rfl⟩

/-! ### Documents -/

/-- Extensions are added exactly when each is accepted and none has the name of another member. -/
theorem addExtensions_eq_ok_iff {doc doc' : Document} {es : List (Text × Value)} :
    addExtensions doc es = .ok doc' ↔
      ∃ xs, ExtensionValue.ofEntries es = .ok xs ∧ (∀ x ∈ xs, isMemberName x.1 = false) ∧
        doc.insertAll (extensionEntries xs) = doc' := by
  induction es generalizing doc with
  | nil =>
    constructor
    · intro h
      cases h
      exact ⟨[], rfl, fun _ hx => absurd hx List.not_mem_nil, rfl⟩
    · rintro ⟨xs, ⟨⟩, -, rfl⟩
      rfl
  | cons e rest ih =>
    obtain ⟨name, v⟩ := e
    rw [addExtensions, ExtensionValue.ofEntries]
    by_cases hname : isMemberName name
    · rw [if_pos hname]
      constructor
      · intro h
        cases h
      · rintro ⟨xs, hxs, hnames, -⟩
        -- The first extension would keep its name.
        split at hxs
        · cases hxs
        · obtain ⟨ys, -, rfl⟩ := Except.map_eq_ok_iff.mp hxs
          rw [(List.forall_mem_cons.mp hnames).1] at hname
          cases hname
    · rw [if_neg hname]
      cases ExtensionValue.ofValue name v with
      | error issue =>
        constructor
        · intro h
          cases h
        · rintro ⟨xs, ⟨⟩, -, -⟩
      | ok x =>
        simp only [ih, Except.map_eq_ok_iff]
        constructor
        · rintro ⟨xs, hxs, hnames, hdoc⟩
          refine ⟨(name, x) :: xs, ⟨xs, hxs, rfl⟩, ?_, hdoc⟩
          rw [List.forall_mem_cons]
          exact ⟨Bool.eq_false_iff.mpr hname, hnames⟩
        · rintro ⟨_, ⟨xs, hxs, rfl⟩, hnames, hdoc⟩
          exact ⟨xs, hxs, (List.forall_mem_cons.mp hnames).2, hdoc⟩

/-- The members of attributes and extensions do not replace each other. -/
theorem nodup_attributes_extensions {e : Event} {xs : List (Text × ExtensionValue)}
    (hxs : ExtensionValue.ofEntries e.extensions.entries = .ok xs)
    (hnames : ∀ x ∈ xs, isMemberName x.1 = false) :
    ((attributeEntries e ++ extensionEntries xs).map (·.1)).Nodup := by
  rw [List.map_append, map_fst_extensionEntries, List.nodup_append]
  refine ⟨nodup_attributeEntries e, ?_, ?_⟩
  · rw [ExtensionValue.map_fst_of_ofEntries hxs]
    exact e.extensions.nodup
  · rintro name hname name' hname' rfl
    obtain ⟨x, hx, rfl⟩ := List.mem_map.mp hname'
    obtain ⟨s, hs, hname⟩ := exists_attributeName hname
    have hmember := hnames x hx
    rw [hname, (isMemberName_of_attribute hs).1] at hmember
    cases hmember

/-- The member of the data does not replace another. -/
theorem dataMember_notMem {e : Event} {xs : List (Text × ExtensionValue)}
    (hnames : ∀ x ∈ xs, isMemberName x.1 = false) :
    (dataMember e.dataContentType e.data).1
      ∉ (attributeEntries e ++ extensionEntries xs).map (·.1) := by
  obtain ⟨s, hs, hname⟩ := dataMember_name e.dataContentType e.data
  rw [hname, List.map_append, map_fst_extensionEntries, List.mem_append, not_or]
  constructor
  · intro hmem
    obtain ⟨s', hs', heq⟩ := exists_attributeName hmem
    rw [Text.ofString_inj.mp heq] at hs
    exact (isMemberName_of_attribute hs').2 hs
  · intro hmem
    obtain ⟨x, hx, heq⟩ := List.mem_map.mp hmem
    have hmember := hnames x hx
    rw [heq, isMemberName_of_data hs] at hmember
    cases hmember

/-- The members of an event are those of its attributes, of its extensions and of its data, in this
order. -/
theorem entries_of_document {e : Event} {doc : Document} (h : document e = .ok doc) :
    ∃ xs, ExtensionValue.ofEntries e.extensions.entries = .ok xs ∧
      (∀ x ∈ xs, isMemberName x.1 = false) ∧
      doc.entries = attributeEntries e ++ extensionEntries xs ++ dataEntries e := by
  rw [document, Except.bind_eq_ok_iff] at h
  obtain ⟨doc', hdoc', h⟩ := h
  obtain ⟨xs, hxs, hnames, hinsert⟩ := addExtensions_eq_ok_iff.mp hdoc'
  refine ⟨xs, hxs, hnames, ?_⟩
  have hattributes : (attributeMembers e).entries = attributeEntries e :=
    OrderedMap.entries_ofList (nodup_attributeEntries e)
  have hentries : doc'.entries = attributeEntries e ++ extensionEntries xs := by
    rw [← hinsert, ← hattributes]
    refine OrderedMap.entries_insertAll ?_
    rw [hattributes]
    exact nodup_attributes_extensions hxs hnames
  -- The data is added as the last member, under a name that is still free.
  have hfresh : (dataMember e.dataContentType e.data).1 ∉ doc'.keys := by
    rw [OrderedMap.keys, hentries]
    exact dataMember_notMem hnames
  rw [dataEntries, ← hentries]
  split at h
  · rename_i hempty
    cases h
    rw [if_pos hempty, List.append_nil]
  · rename_i hempty
    cases h
    rw [if_neg hempty]
    exact OrderedMap.entries_insert_of_notMem hfresh _

/-- An event has members when its extensions are accepted and have names of their own. -/
theorem exists_document {e : Event} {xs : List (Text × ExtensionValue)}
    (hxs : ExtensionValue.ofEntries e.extensions.entries = .ok xs)
    (hnames : ∀ x ∈ xs, isMemberName x.1 = false) :
    ∃ doc, document e = .ok doc ∧
      doc.entries = attributeEntries e ++ extensionEntries xs ++ dataEntries e := by
  have hdoc : ∃ doc, document e = .ok doc := by
    rw [document, addExtensions_eq_ok_iff.mpr ⟨xs, hxs, hnames, rfl⟩]
    simp only [bind, Except.bind]
    split <;> exact ⟨_, rfl⟩
  obtain ⟨doc, hdoc⟩ := hdoc
  obtain ⟨xs', hxs', -, hentries⟩ := entries_of_document hdoc
  rw [hxs] at hxs'
  cases hxs'
  exact ⟨doc, hdoc, hentries⟩

/-! ### Look-ups -/

/-- The members as they are written. -/
def written (entries : List (Text × Member)) : List (Text × Json) :=
  entries.map fun m => (m.1, m.2.toJson)

theorem member?_append (name : Text) (ms ns : List (Text × Json)) :
    Json.member? name (ms ++ ns) = (Json.member? name ms).or (Json.member? name ns) := by
  induction ms with
  | nil => rfl
  | cons m rest ih =>
    rw [List.cons_append, Json.member?, Json.member?, ih]
    split <;> rfl

theorem member?_optional {α : Type} (name name' : Text) (o : Option α) (f : α → Json) :
    Json.member? name (o.map fun a => (name', f a)).toList
      = if name' = name then o.map f else none := by
  cases o with
  | none => simp [Json.member?]
  | some a => rfl

theorem member?_eq_none {name : Text} {ms : List (Text × Json)} (h : name ∉ ms.map (·.1)) :
    Json.member? name ms = none := by
  induction ms with
  | nil => rfl
  | cons m rest ih =>
    rw [List.map_cons, List.mem_cons, not_or] at h
    rw [Json.member?, if_neg (Ne.symm h.1), ih h.2]

theorem map_fst_written (entries : List (Text × Member)) :
    (written entries).map (·.1) = entries.map (·.1) := by
  rw [written, List.map_map]
  rfl

theorem written_append (entries entries' : List (Text × Member)) :
    written (entries ++ entries') = written entries ++ written entries' :=
  List.map_append

theorem written_optional {α : Type} (o : Option α) (name : String) (f : α → AttributeValue) :
    written ((o.map fun a => (name, f a)).toList.map fun a => ((a.1 : Text), .ofAttribute a.2))
      = (o.map fun a => ((name : Text), (Member.ofAttribute (f a)).toJson)).toList := by
  cases o <;> rfl

theorem written_attributeEntries (e : Event) :
    written (attributeEntries e) =
      [(("specversion" : Text), Json.text e.specversion), (("id" : Text), Json.text e.id),
        (("source" : Text), Json.text e.source), (("type" : Text), Json.text e.type)]
      ++ (e.time.map fun t => (("time" : Text), Json.text (Text.ofChars t.rfc3339))).toList
      ++ (e.dataContentType.map fun t => (("datacontenttype" : Text), Json.text t)).toList
      ++ (e.dataSchema.map fun t => (("dataschema" : Text), Json.text t)).toList
      ++ (e.subject.map fun t => (("subject" : Text), Json.text t)).toList := by
  simp only [attributeEntries, Event.attributes, List.map_append, written_append, written_optional]
  simp [written, Member.ofAttribute, Member.toJson]

/-- The members of an event's object apart from its data, with its extensions in a list. -/
structure Outlines (e : Event) (xs : List (Text × ExtensionValue)) (ms : List (Text × Json)) :
    Prop where
  specversion : Json.member? "specversion" ms = some (.text e.specversion)
  id : Json.member? "id" ms = some (.text e.id)
  source : Json.member? "source" ms = some (.text e.source)
  type : Json.member? "type" ms = some (.text e.type)
  time : Json.member? "time" ms = e.time.map fun t => .text (Text.ofChars t.rfc3339)
  dataContentType : Json.member? "datacontenttype" ms = e.dataContentType.map .text
  dataSchema : Json.member? "dataschema" ms = e.dataSchema.map .text
  subject : Json.member? "subject" ms = e.subject.map .text
  extensions : (ms.filter fun m => !isMemberName m.1) = written (extensionEntries xs)

/-- The members of an event's object, with its data and with its extensions in a list. -/
structure Describes (e : Event) (xs : List (Text × ExtensionValue)) (ms : List (Text × Json)) : Prop
    extends Outlines e xs ms where
  data : Json.member? "data" ms = Json.member? "data" (written (dataEntries e))
  dataBase64 : Json.member? "data_base64" ms = Json.member? "data_base64" (written (dataEntries e))

theorem member?_extensionEntries {xs : List (Text × ExtensionValue)}
    (hnames : ∀ x ∈ xs, isMemberName x.1 = false) {name : Text} (hname : isMemberName name) :
    Json.member? name (written (extensionEntries xs)) = none := by
  refine member?_eq_none fun hmem => ?_
  rw [map_fst_written, map_fst_extensionEntries] at hmem
  obtain ⟨x, hx, rfl⟩ := List.mem_map.mp hmem
  rw [hnames x hx] at hname
  cases hname

theorem exists_dataName {e : Event} {name : Text} (h : name ∈ (dataEntries e).map (·.1)) :
    ∃ s ∈ dataNames, name = Text.ofString s := by
  rw [dataEntries] at h
  split at h
  · cases h
  · rw [List.map_cons, List.map_nil, List.mem_singleton] at h
    rw [h]
    exact dataMember_name e.dataContentType e.data

/-- Members that are named like attributes or the data are no extensions. -/
theorem filter_eq_nil_of_isMemberName {entries : List (Text × Member)}
    (h : ∀ name ∈ entries.map (·.1), isMemberName name) :
    ((written entries).filter fun m => !isMemberName m.1) = [] := by
  rw [List.filter_eq_nil_iff]
  intro m hm
  have hname : m.1 ∈ entries.map (·.1) := by
    rw [← map_fst_written]
    exact List.mem_map.mpr ⟨m, hm, rfl⟩
  simp [h _ hname]

theorem filter_extensionEntries {xs : List (Text × ExtensionValue)}
    (hnames : ∀ x ∈ xs, isMemberName x.1 = false) :
    ((written (extensionEntries xs)).filter fun m => !isMemberName m.1)
      = written (extensionEntries xs) := by
  rw [List.filter_eq_self]
  intro m hm
  have hname : m.1 ∈ xs.map (·.1) := by
    rw [← map_fst_extensionEntries, ← map_fst_written]
    exact List.mem_map.mpr ⟨m, hm, rfl⟩
  obtain ⟨x, hx, heq⟩ := List.mem_map.mp hname
  simp [← heq, hnames x hx]

/-- The name of an attribute is looked up among the attributes only. -/
theorem member?_attribute {e : Event} {xs : List (Text × ExtensionValue)}
    (hnames : ∀ x ∈ xs, isMemberName x.1 = false) {name : String} (h : name ∈ attributeNames) :
    Json.member? name (written (attributeEntries e) ++ written (extensionEntries xs)
      ++ written (dataEntries e)) = Json.member? name (written (attributeEntries e)) := by
  obtain ⟨hmember, hdata⟩ := isMemberName_of_attribute h
  have hnone : Json.member? name (written (dataEntries e)) = none := by
    refine member?_eq_none fun hmem => ?_
    rw [map_fst_written] at hmem
    obtain ⟨s, hs, heq⟩ := exists_dataName hmem
    exact hdata (Text.ofString_inj.mp heq ▸ hs)
  rw [member?_append, member?_append, member?_extensionEntries hnames hmember, hnone,
    Option.or_none, Option.or_none]

/-- A name of the data is looked up in its member only. -/
theorem member?_data {e : Event} {xs : List (Text × ExtensionValue)}
    (hnames : ∀ x ∈ xs, isMemberName x.1 = false) {name : String} (h : name ∈ dataNames) :
    Json.member? name (written (attributeEntries e) ++ written (extensionEntries xs)
      ++ written (dataEntries e)) = Json.member? name (written (dataEntries e)) := by
  have hnone : Json.member? name (written (attributeEntries e)) = none := by
    refine member?_eq_none fun hmem => ?_
    rw [map_fst_written] at hmem
    obtain ⟨s, hs, heq⟩ := exists_attributeName hmem
    exact (isMemberName_of_attribute hs).2 (Text.ofString_inj.mp heq ▸ h)
  rw [member?_append, member?_append, hnone,
    member?_extensionEntries hnames (isMemberName_of_data h), Option.none_or, Option.none_or]

/-- The members of the object of an event, with its accepted extensions in a list. -/
def objectMembers (e : Event) (xs : List (Text × ExtensionValue)) : List (Text × Json) :=
  written (attributeEntries e) ++ written (extensionEntries xs) ++ written (dataEntries e)

/-- Every attribute and every extension of an event's object is found under its name. -/
theorem outlines_objectMembers {e : Event} {xs : List (Text × ExtensionValue)}
    (hnames : ∀ x ∈ xs, isMemberName x.1 = false) : Outlines e xs (objectMembers e xs) := by
  rw [objectMembers]
  constructor
  case specversion =>
    rw [member?_attribute hnames (by simp [attributeNames]), written_attributeEntries]
    rfl
  case id =>
    rw [member?_attribute hnames (by simp [attributeNames]), written_attributeEntries]
    rfl
  case source =>
    rw [member?_attribute hnames (by simp [attributeNames]), written_attributeEntries]
    rfl
  case type =>
    rw [member?_attribute hnames (by simp [attributeNames]), written_attributeEntries]
    rfl
  -- The four optional attributes stand behind others that may not be there.
  case time =>
    rw [member?_attribute hnames (by simp [attributeNames]), written_attributeEntries]
    simp [member?_append, member?_optional, Json.member?, Text.ofString_inj]
  case dataContentType =>
    rw [member?_attribute hnames (by simp [attributeNames]), written_attributeEntries]
    simp [member?_append, member?_optional, Json.member?, Text.ofString_inj]
  case dataSchema =>
    rw [member?_attribute hnames (by simp [attributeNames]), written_attributeEntries]
    simp [member?_append, member?_optional, Json.member?, Text.ofString_inj]
  case subject =>
    rw [member?_attribute hnames (by simp [attributeNames]), written_attributeEntries]
    simp [member?_append, member?_optional, Json.member?, Text.ofString_inj]
  case extensions =>
    have hattributes : ((written (attributeEntries e)).filter fun m => !isMemberName m.1) = [] := by
      refine filter_eq_nil_of_isMemberName fun name hname => ?_
      obtain ⟨s, hs, rfl⟩ := exists_attributeName hname
      exact (isMemberName_of_attribute hs).1
    have hdata : ((written (dataEntries e)).filter fun m => !isMemberName m.1) = [] := by
      refine filter_eq_nil_of_isMemberName fun name hname => ?_
      obtain ⟨s, hs, rfl⟩ := exists_dataName hname
      exact isMemberName_of_data hs
    rw [List.filter_append, List.filter_append, hattributes, hdata, filter_extensionEntries hnames,
      List.nil_append, List.append_nil]

/-- Every member of an event's object is found under its name. -/
theorem describes_objectMembers {e : Event} {xs : List (Text × ExtensionValue)}
    (hnames : ∀ x ∈ xs, isMemberName x.1 = false) : Describes e xs (objectMembers e xs) where
  toOutlines := outlines_objectMembers hnames
  data := member?_data hnames (by simp [dataNames])
  dataBase64 := member?_data hnames (by simp [dataNames])

/-! ### Objects -/

/-- The object of an event's members has no name twice. -/
theorem nodup_objectMembers {e : Event} {xs : List (Text × ExtensionValue)}
    (hxs : ExtensionValue.ofEntries e.extensions.entries = .ok xs)
    (hnames : ∀ x ∈ xs, isMemberName x.1 = false) : ((objectMembers e xs).map (·.1)).Nodup := by
  obtain ⟨doc, -, hentries⟩ := exists_document hxs hnames
  have hmembers : objectMembers e xs = written doc.entries := by
    rw [hentries, written_append, written_append, objectMembers]
  rw [hmembers, map_fst_written]
  exact doc.nodup

/-- An event whose extensions are accepted and have names of their own is written as its object, if
the object has a form in UTF-8. -/
theorem serialize_of_ofEntries {e : Event} {xs : List (Text × ExtensionValue)}
    (hxs : ExtensionValue.ofEntries e.extensions.entries = .ok xs)
    (hnames : ∀ x ∈ xs, isMemberName x.1 = false) :
    serialize e = ((Json.object (objectMembers e xs)).write .unicode).utf8?.elim
      (.error .unencodable) .ok := by
  obtain ⟨doc, hdoc, hentries⟩ := exists_document hxs hnames
  have hobject : toJson doc = .object (objectMembers e xs) := by
    show Json.object (written doc.entries) = _
    rw [hentries, written_append, written_append, objectMembers]
  rw [serialize, hdoc]
  simp only [bind, Except.bind, hobject]
  cases ((Json.object (objectMembers e xs)).write .unicode).utf8? <;> rfl

/-- An event is written as its object, when its extensions are accepted and have names of their own
and the object has a form in UTF-8. -/
theorem serialize_eq_ok_iff {e : Event} {raw : Bytes} :
    serialize e = .ok raw ↔ ∃ xs, ExtensionValue.ofEntries e.extensions.entries = .ok xs ∧
      (∀ x ∈ xs, isMemberName x.1 = false) ∧
        ((Json.object (objectMembers e xs)).write .unicode).utf8? = some raw := by
  constructor
  · intro h
    obtain ⟨doc, hdoc, -⟩ := Except.bind_eq_ok_iff.mp h
    obtain ⟨xs, hxs, hnames, -⟩ := entries_of_document hdoc
    refine ⟨xs, hxs, hnames, ?_⟩
    rw [serialize_of_ofEntries hxs hnames] at h
    cases hbytes : ((Json.object (objectMembers e xs)).write .unicode).utf8? with
    | none =>
      rw [hbytes] at h
      cases h
    | some bytes =>
      rw [hbytes] at h
      exact congrArg some (Except.ok.inj h)
  · rintro ⟨xs, hxs, hnames, hraw⟩
    rw [serialize_of_ofEntries hxs hnames, hraw]
    rfl

end CloudEnvelope.JsonEnvelope
