import CloudEnvelope.Proofs.Calendar.Rfc3339
import CloudEnvelope.Proofs.Format.AvroEnvelope
import CloudEnvelope.Proofs.Format.XmlEnvelope
import CloudEnvelope.Proofs.Xml.Document

/-!
# Events in XML as documents

`XmlEnvelope.denotes_iff`: what is written of an event is a well-formed document exactly if it has
no text that a document may not hold, and the root of the document is the event's element with
settled texts.  `XmlEnvelope.serialize_denotes` says this in terms of the event.

The writer replaces the characters of markup only.  So a control character ends up in the document,
where none may stand, and a carriage return is taken for a line end (`XmlEnvelope.about_unread`).
-/

namespace CloudEnvelope

/-- The event has a text under a name: as a context attribute, or as an extension whose value is a
text or is rendered as one. -/
def Event.Carries (e : Event) (name t : Text) : Prop :=
  (∃ a : ContextAttribute, (a.name : Text) = name ∧ e.attribute? a = some (.text t)) ∨
    ∃ v, (name, v) ∈ e.extensions.entries ∧ ExtensionValue.ofValue? v = some (.text t)

namespace Xml

/-- The root has exactly these characters in a child of this name. -/
def Grammar.Node.Says : Grammar.Node → List Char → List Char → Prop
  | .element _ _ content, name, cs => ∃ as, .element name as (Node.chars cs) ∈ content
  | .char _, _, _ => False

theorem isProper_ofString {s : String} (h : Grammar.isName s.toList) : IsProper s := ⟨_, rfl, h⟩

theorem isProper_of_isNCName {name : Text} (h : Grammar.isNCName name) : IsProper name := by
  rw [Grammar.isNCName] at h
  split at h
  · rename_i cs hcs
    exact ⟨cs, Text.scalars?_eq_some_iff.mp hcs, (Bool.and_eq_true_iff.mp h).1⟩
  · cases h

/-- Digits are legal. -/
theorem isChar_of_isDigit {c : Char} (h : c.isDigit) : Grammar.isChar c := by
  have hrange : Grammar.isIn [(0x30, 0x39)] c := by
    simpa [Char.isDigit, Grammar.isIn, UInt32.le_iff_toNat_le] using h
  exact Grammar.isIn_of_isIn (by decide) hrange

theorem isLegal_rfc3339 (t : DateTime) : IsLegal (Text.ofChars t.rfc3339) := by
  have hmarks : ∀ c ∈ Calendar.timeMarks, Grammar.isChar c := List.all_eq_true.mp (by decide)
  refine isLegal_ofChars_iff.mpr fun c hc => ?_
  rcases DateTime.mem_rfc3339 hc with hdigit | hmark
  · exact isChar_of_isDigit hdigit
  · exact hmarks c hmark

theorem isLegal_encodeString (data : Bytes) : IsLegal (Base64.encodeString data) := by
  have hdigits : ∀ i : Fin 64, Grammar.isChar (Base64.digit i) := by decide
  refine isLegal_ofChars_iff.mpr fun c hc => ?_
  rw [Base64.encodeString, String.toList_ofList] at hc
  rcases Base64.mem_encode hc with rfl | ⟨n, hn, rfl⟩
  · decide
  · exact hdigits ⟨n, hn⟩

theorem isLegal_ofInt (n : Int) : IsLegal (Text.ofInt n) := by
  have hnat : ∀ n, IsLegal (Text.ofNat n) := by
    intro n
    refine isLegal_ofChars_iff.mpr fun c hc => ?_
    exact isChar_of_isDigit (Nat.isDigit_of_mem_toDigits (by decide) (by decide) hc)
  cases n with
  | ofNat n => exact hnat n
  | negSucc n => exact List.forall_mem_cons.mpr ⟨by decide, hnat (n + 1)⟩

end Xml

namespace XmlEnvelope

open Xml

variable {e : Event} {xs : List (Text × ExtensionValue)} {raw : Bytes}

/-! ### The element of an event -/

theorem isProper_typed (typeName : String) : IsProper (typed typeName).name :=
  isProper_ofString (by decide)

theorem proper_elementOf (hnames : ∀ x ∈ xs, Grammar.isNCName x.1) : (elementOf e xs).Proper := by
  have htyped : ∀ types : Option String, (∀ a ∈ (types.map typed).toList, IsProper a.name) ∧
      ((types.map typed).toList.map (·.name)).Nodup := by
    intro types
    cases types with
    | none => exact ⟨nofun, List.nodup_nil⟩
    | some typeName =>
      exact ⟨List.forall_mem_singleton.mpr (isProper_typed typeName), List.nodup_singleton _⟩
  have hroot : ∀ name ∈ ["xmlns:xs", "xmlns:xsi", "specversion", "xmlns"],
      Grammar.isName (String.toList name) := by decide
  have hattribute : ∀ a : ContextAttribute, Grammar.isName a.name.toList :=
    fun a => by cases a <;> decide
  refine ⟨isProper_ofString (by decide), fun a ha => ?_, ?_, fun l hl => ?_⟩
  · simp only [elementOf, rootAttributes, List.mem_cons, List.not_mem_nil, or_false] at ha
    rcases ha with rfl | rfl | rfl | rfl <;> exact isProper_ofString (hroot _ (by decide))
  · show (["xmlns:xs", "xmlns:xsi", "specversion", "xmlns"].map Text.ofString).Nodup
    decide
  · rcases mem_children_iff.mp hl with ⟨a, v, -, rfl⟩ | ⟨x, hx, rfl⟩ | hl
    · exact ⟨isProper_ofString (hattribute a), (htyped _).1, (htyped _).2⟩
    · exact ⟨isProper_of_isNCName (hnames x hx), (htyped (some _)).1, (htyped (some _)).2⟩
    · obtain ⟨-, rfl⟩ := mem_dataLeaf_iff.mp hl
      exact ⟨isProper_ofString (by decide), (htyped (some _)).1, (htyped (some _)).2⟩

/-- The names of types are legal. -/
theorem isLegal_attributeType {name typeName : String} (h : attributeType? name = some typeName) :
    IsLegal typeName := by
  unfold attributeType? at h
  split_ifs at h <;> cases h <;> decide

theorem isLegal_typedType (x : ExtensionValue) : IsLegal (typedText x).1 := by
  have hnames : ∀ typeName ∈ ["xs:boolean", "xs:int", "xs:string", "xs:base64Binary"],
      IsLegal (Text.ofString typeName) := by decide
  cases x <;> exact hnames _ (by simp [typedText])

/-- So is what is written for an extension that is no text. -/
theorem isLegal_typedText {x : ExtensionValue} (h : ∀ t, x ≠ .text t) :
    IsLegal (typedText x).2 := by
  cases x with
  | bool b => cases b <;> decide
  | int n => exact isLegal_ofInt n
  | text t => exact absurd rfl (h t)
  | bytes content => exact isLegal_encodeString content

/-- What a text of an event is written as. -/
theorem says_iff_of_carries (hxs : ExtensionValue.ofEntries e.extensions.entries = .ok xs)
    {name t : Text} (h : e.Carries name t) (u : Text) : Says (elementOf e xs) name u ↔ u = t := by
  have hforbidden := ExtensionValue.not_isForbidden_of_ofEntries hxs
  rcases h with ⟨a, rfl, ha⟩ | ⟨v, hv, ht⟩
  · rw [says_attribute_iff hforbidden, ha]
    exact Option.some_inj.trans eq_comm
  · obtain ⟨⟨_, x⟩, hx, rfl, hread⟩ := ExtensionValue.exists_mem_of_ofEntries hxs hv
    obtain rfl : x = .text t :=
      Option.some.inj ((ExtensionValue.ofValue_eq_ok_iff.mp hread).2.symm.trans ht)
    exact says_extension_iff hxs hx u

/-- A child has a text of the event, or one that is legal whatever the event is. -/
theorem carries_or_isLegal_of_mem (hxs : ExtensionValue.ofEntries e.extensions.entries = .ok xs)
    {l : Leaf} (hl : l ∈ (elementOf e xs).children) :
    (∀ a ∈ l.attributes, IsLegal a.value) ∧ (e.Carries l.name l.text ∨ IsLegal l.text) := by
  rcases mem_children_iff.mp hl with ⟨a, v, ha, rfl⟩ | ⟨⟨name, x⟩, hx, rfl⟩ | hl
  · refine ⟨fun y hy => ?_, ?_⟩
    · obtain ⟨typeName, htype, rfl⟩ := Option.map_eq_some_iff.mp (Option.mem_toList.mp hy)
      exact isLegal_attributeType htype
    · cases v with
      | text t => exact .inl (.inl ⟨a, rfl, ha⟩)
      | time t => exact .inr (isLegal_rfc3339 t)
  · refine ⟨List.forall_mem_singleton.mpr (isLegal_typedType x), ?_⟩
    by_cases htext : ∃ t, x = .text t
    · obtain ⟨t, rfl⟩ := htext
      obtain ⟨⟨_, v⟩, hv, rfl, hread⟩ := ExtensionValue.exists_reads_of_mem hxs hx
      exact .inl (.inr ⟨v, hv, (ExtensionValue.ofValue_eq_ok_iff.mp hread).2⟩)
    · exact .inr (isLegal_typedText fun t ht => htext ⟨t, ht⟩)
  · obtain ⟨-, rfl⟩ := mem_dataLeaf_iff.mp hl
    exact ⟨List.forall_mem_singleton.mpr (show IsLegal "xs:base64Binary" by decide),
      .inr (isLegal_encodeString e.data)⟩

/-- What is asked of texts, and is true of all legal ones, is asked of the texts of an event only:
whatever else is written is legal. -/
theorem texts_elementOf_iff {P : Text → Prop} (hP : ∀ t, IsLegal t → P t)
    (hxs : ExtensionValue.ofEntries e.extensions.entries = .ok xs) :
    (elementOf e xs).Texts P ↔ P e.specversion ∧ ∀ name t, e.Carries name t → P t := by
  constructor
  · intro h
    refine ⟨h.attributes ⟨"specversion", e.specversion⟩ (by simp [elementOf, rootAttributes]),
      fun name t hcarries => ?_⟩
    obtain ⟨l, hl, -, rfl⟩ := (says_iff_of_carries hxs hcarries t).mpr rfl
    exact (h.children l hl).text
  · rintro ⟨hversion, hcarries⟩
    refine ⟨fun a ha => ?_, fun l hl => ?_⟩
    · simp only [elementOf, rootAttributes, List.mem_cons, List.not_mem_nil, or_false] at ha
      rcases ha with rfl | rfl | rfl | rfl
      · exact hP _ (by decide)
      · exact hP _ (by decide)
      · exact hversion
      · exact hP _ (by decide)
    · obtain ⟨htypes, htext⟩ := carries_or_isLegal_of_mem hxs hl
      refine ⟨fun a ha => hP _ (htypes a ha), ?_⟩
      rcases htext with htext | htext
      · exact hcarries l.name l.text htext
      · exact hP _ htext

/-- An event whose extensions can be elements is written exactly when no lone surrogate stands in
its texts. -/
theorem exists_serialize_iff (hxs : ExtensionValue.ofEntries e.extensions.entries = .ok xs)
    (hnames : ∀ x ∈ xs, (isElementName x.1 ∧ x.2.isSpelled) ∧ Grammar.isNCName x.1) :
    (∃ raw, EventFormat.xml.serialize e = .ok raw) ↔
      e.specversion.LoneFree ∧ ∀ name t, e.Carries name t → t.LoneFree := by
  have hproper : (elementOf e xs).Proper := proper_elementOf fun x hx => (hnames x hx).2
  rw [← texts_elementOf_iff (fun _ => IsLegal.loneFree) hxs, ← Element.loneFree_write_iff hproper,
    ← Text.isSome_utf8?_iff, Option.isSome_iff_exists]
  constructor
  · rintro ⟨raw, hraw⟩
    obtain ⟨ys, hys, -, bytes, hbytes, -⟩ := serialize_eq_ok_iff.mp hraw
    obtain rfl : xs = ys := Except.ok.inj (hxs.symm.trans hys)
    exact ⟨bytes, hbytes⟩
  · rintro ⟨bytes, hbytes⟩
    exact ⟨_, serialize_eq_ok_iff.mpr ⟨xs, hxs, fun x hx => (hnames x hx).1, bytes, hbytes, rfl⟩⟩

/-! ### The document of an event -/

/-- The declaration is one, whatever follows it. -/
theorem declared_declaration (cs : List Char) :
    Grammar.Declared (declaration.toList ++ cs) cs := by
  let version := " version=\"1.0\"".toList
  let encoding := " encoding=\"UTF-8\"".toList
  let standalone := " standalone=\"no\"".toList
  let final := "?>".toList ++ cs
  have hattributes : Grammar.Attributes [("version".toList, "1.0".toList),
      ("encoding".toList, "UTF-8".toList), ("standalone".toList, "no".toList)]
      (version ++ (encoding ++ (standalone ++ final))) final :=
    .cons rfl (.cons rfl (.cons rfl (.nil rfl)))
  exact .declaration rfl hattributes (by decide) rfl

/-- What is written of an event is a document exactly if it has no illegal text, and then of its
settled element. -/
theorem denotes_iff (h : serialize e = .ok raw)
    (hxs : ExtensionValue.ofEntries e.extensions.entries = .ok xs)
    (hnames : ∀ x ∈ xs, Grammar.isNCName x.1) (root : Grammar.Node) :
    Grammar.Denotes raw root ↔
      (elementOf e xs).Texts IsLegal ∧ root = (elementOf e xs).settled.node := by
  obtain ⟨ys, hys, -, bytes, hbytes, rfl⟩ := serialize_eq_ok_iff.mp h
  obtain rfl : xs = ys := Except.ok.inj (hxs.symm.trans hys)
  obtain ⟨cs, hcs, rfl⟩ := Text.utf8?_eq_some_iff.mp hbytes
  have hproper : (elementOf e xs).Proper := proper_elementOf hnames
  have hchars : (elementOf e xs).write.chars = cs := by rw [hcs, Text.chars_ofChars]
  have hfree : (elementOf e xs).write.LoneFree := hcs ▸ Text.loneFree_ofChars cs
  -- The line ends of the document are those of the element.
  have hdecode : Utf8.decode? (Utf8.ofString declaration ++ Utf8.encode cs)
      = some (declaration.toList ++ cs) := by
    rw [Utf8.ofString, ← Utf8.decode?_encode, Utf8.encode, Utf8.encode, Utf8.encode,
      List.flatMap_append]
  have hends : Grammar.lineEnds (declaration.toList ++ cs)
      = declaration.toList ++ Grammar.lineEnds cs :=
    lineEnds_append_of_unbroken (by unfold Unbroken; decide) cs
  have hbody : Grammar.Body (elementOf e xs).settled.node (Grammar.lineEnds cs) :=
    hchars ▸ Element.body_write hproper hfree
  have hlegal : (∀ c ∈ declaration.toList ++ Grammar.lineEnds cs, Grammar.isChar c) ↔
      (elementOf e xs).Texts IsLegal := by
    have hdeclaration : ∀ c ∈ declaration.toList, Grammar.isChar c :=
      List.all_eq_true.mp (by decide)
    rw [List.forall_mem_append, and_iff_right hdeclaration, Grammar.lineEnds,
      Grammar.forall_isChar_lineEndsFrom_iff, ← isLegal_ofChars_iff, ← hcs,
      Element.isLegal_write_iff hproper]
  have hbodies : ∃ rest, Grammar.Declared (declaration.toList ++ Grammar.lineEnds cs) rest ∧
      Grammar.Body (elementOf e xs).settled.node rest := ⟨_, declared_declaration _, hbody⟩
  constructor
  · rintro ⟨ds, hds, hdocument⟩
    rw [hdecode, Option.some.injEq] at hds
    rw [← hds, hends] at hdocument
    exact ⟨hlegal.mp hdocument.legal, hdocument.unique ⟨hdocument.legal, hbodies⟩⟩
  · rintro ⟨htexts, rfl⟩
    exact ⟨_, hdecode, hends ▸ ⟨hlegal.mpr htexts, hbodies⟩⟩

/-- A reader learns the texts of an element up to their line ends. -/
theorem says_node_iff {root : Element} (hproper : root.Proper) {n u : List Char} :
    root.settled.node.Says n u ↔
      ∃ t, Says root (Text.ofChars n) t ∧ u = Grammar.lineEnds t.chars := by
  show (∃ as, Grammar.Node.element n as (Grammar.Node.chars u) ∈
    (root.children.map Leaf.settled).map Leaf.node) ↔ _
  constructor
  · rintro ⟨as, hmem⟩
    rw [List.map_map] at hmem
    obtain ⟨l, hl, hnode⟩ := List.mem_map.mp hmem
    obtain ⟨cs, hcs, -⟩ := (hproper.children l hl).name
    injection hnode with hname _ htext
    have hname' : l.name = Text.ofChars n := by
      rw [hcs, ← hname]
      show _ = Text.ofChars l.name.chars
      rw [hcs, Text.chars_ofChars]
    have htext' : (settle l.text).chars = u :=
      List.map_injective_iff.mpr (fun _ _ => Grammar.Node.char.inj) htext
    refine ⟨l.text, ⟨l, hl, hname', rfl⟩, ?_⟩
    rw [← htext', settle, Text.chars_ofChars]
  · rintro ⟨t, ⟨l, hl, hname, rfl⟩, rfl⟩
    refine ⟨l.attributes.map Attribute.chars, ?_⟩
    rw [List.map_map]
    refine List.mem_map.mpr ⟨l, hl, ?_⟩
    show Grammar.Node.element l.name.chars _ (Grammar.Node.chars (settle l.text).chars) = _
    rw [hname, settle, Text.chars_ofChars, Text.chars_ofChars]
    rfl

/-- The names under which an event has texts are made of scalar values. -/
theorem exists_chars_of_carries (hnames : ∀ x ∈ e.extensions.entries, Grammar.isNCName x.1)
    {name t : Text} (h : e.Carries name t) : ∃ n, name = Text.ofChars n := by
  rcases h with ⟨a, rfl, -⟩ | ⟨v, hv, -⟩
  · exact ⟨a.name.toList, rfl⟩
  · obtain ⟨n, hn, -⟩ := isProper_of_isNCName (hnames _ hv)
    exact ⟨n, hn⟩

/-- What is written of an event is a well-formed document exactly when a document may hold each of
its texts.  Then every text is read back up to its line ends, so as it is if it has no carriage
return, and nothing is read for an attribute that is not there. -/
theorem serialize_denotes (h : EventFormat.xml.serialize e = .ok raw)
    (hnames : ∀ x ∈ e.extensions.entries, Grammar.isNCName x.1) :
    ((∃ root, Grammar.Denotes raw root) ↔
      IsLegal e.specversion ∧ ∀ name t, e.Carries name t → IsLegal t) ∧
    ∀ root, Grammar.Denotes raw root →
      (∀ name t, e.Carries name t → ∃ n cs, name = Text.ofChars n ∧ t = Text.ofChars cs ∧
        (∀ u, root.Says n u ↔ u = Grammar.lineEnds cs) ∧ (root.Says n cs ↔ '\r' ∉ cs)) ∧
      ∀ a : ContextAttribute, e.attribute? a = none → ∀ u, ¬root.Says a.name.toList u := by
  obtain ⟨xs, hxs, -⟩ := serialize_eq_ok_iff.mp h
  have hforbidden := ExtensionValue.not_isForbidden_of_ofEntries hxs
  have hnames' : ∀ x ∈ xs, Grammar.isNCName x.1 := by
    intro x hx
    obtain ⟨y, hy, hname, -⟩ := ExtensionValue.exists_reads_of_mem hxs hx
    rw [hname]
    exact hnames y hy
  have hdenotes := denotes_iff h hxs hnames'
  constructor
  · rw [← texts_elementOf_iff (fun _ h => h) hxs]
    constructor
    · rintro ⟨root, hroot⟩
      exact ((hdenotes root).mp hroot).1
    · intro htexts
      exact ⟨_, (hdenotes _).mpr ⟨htexts, rfl⟩⟩
  · intro root hroot
    obtain ⟨htexts, rfl⟩ := (hdenotes root).mp hroot
    have hlegal := ((texts_elementOf_iff (fun _ h => h) hxs).mp htexts).2
    have hheard := fun n u => says_node_iff (proper_elementOf (e := e) hnames') (n := n) (u := u)
    refine ⟨fun name t hcarries => ?_, fun a ha u => ?_⟩
    · obtain ⟨n, rfl⟩ := exists_chars_of_carries hnames hcarries
      obtain ⟨cs, rfl⟩ := Text.loneFree_iff.mp (hlegal _ t hcarries).loneFree
      have hread : ∀ u, (elementOf e xs).settled.node.Says n u ↔ u = Grammar.lineEnds cs := by
        intro u
        rw [hheard]
        simp only [says_iff_of_carries hxs hcarries, exists_eq_left, Text.chars_ofChars]
      refine ⟨n, cs, rfl, rfl, hread, ?_⟩
      rw [hread, eq_comm]
      exact Grammar.lineEnds_eq_self_iff
    · rw [hheard]
      rintro ⟨t, ht, -⟩
      have hattribute := (says_attribute_iff hforbidden a t).mp ht
      rw [ha] at hattribute
      cases hattribute

/-- An event whose texts hold markup, and whose subject has two lines. -/
def markedUp : Event where
  specversion := "1.0"
  id := "7"
  source := "urn:x?a=1&b=2"
  type := "t"
  time := none
  dataContentType := none
  dataSchema := none
  subject := some "a < b\r\n&amp;"
  data := []
  extensions := .ofList [("a-b", .text "]]>"), ("n", .int 3)]
  id_ne := bufferedMidnight.id_ne
  source_ne := by decide
  type_ne := AvroEnvelope.eveOfEpoch.type_ne

theorem serialize_denotes_markedUp :
    ∃ raw root, EventFormat.xml.serialize markedUp = .ok raw ∧
      (∀ x ∈ markedUp.extensions.entries, Grammar.isNCName x.1) ∧ Grammar.Denotes raw root ∧
      root.Says "subject".toList "a < b\n&amp;".toList ∧
      root.Says "a-b".toList "]]>".toList := by
  have hentries : markedUp.extensions.entries
      = ([("a-b", .text "]]>"), ("n", .int 3)] : List (Text × Value)) := rfl
  have hlegal : ∀ name t, markedUp.Carries name t → IsLegal t := by
    rintro name t (⟨a, -, ha⟩ | ⟨v, hv, ht⟩)
    · cases a <;> cases ha <;> decide
    · rw [hentries, List.mem_cons, List.mem_singleton] at hv
      rcases hv with hv | hv <;> cases hv <;> cases ht
      decide
  have hversion : IsLegal markedUp.specversion := by decide
  have hxs : ExtensionValue.ofEntries markedUp.extensions.entries
      = .ok [("a-b", .text "]]>"), ("n", .int 3)] := rfl
  obtain ⟨raw, hraw⟩ := (exists_serialize_iff hxs (by decide)).mpr
    ⟨hversion.loneFree, fun name t h => (hlegal name t h).loneFree⟩
  have hnames : ∀ x ∈ markedUp.extensions.entries, Grammar.isNCName x.1 := by
    rw [hentries]
    decide
  obtain ⟨hiff, hread⟩ := serialize_denotes hraw hnames
  obtain ⟨root, hroot⟩ := hiff.mpr ⟨hversion, hlegal⟩
  have hheard := (hread root hroot).1
  obtain ⟨n, cs, hn, hcs, hsubject, -⟩ := hheard _ _ (.inl ⟨.subject, rfl, rfl⟩)
  obtain ⟨m, ds, hm, hds, hheader, -⟩ :=
    hheard _ _ (.inr ⟨.text "]]>", hentries ▸ List.mem_cons_self, rfl⟩)
  obtain rfl := Text.ofChars_inj.mp hn
  obtain rfl := Text.ofChars_inj.mp hcs
  obtain rfl := Text.ofChars_inj.mp hm
  obtain rfl := Text.ofChars_inj.mp hds
  exact ⟨raw, root, hraw, hnames, hroot, (hsubject _).mpr rfl, (hheader _).mpr rfl⟩

/-- An event with a subject. -/
def about (subject : String) : Event where
  specversion := "1.0"
  id := "1"
  source := "urn:x"
  type := "t"
  time := none
  dataContentType := none
  dataSchema := none
  subject := some subject
  data := []
  extensions := .empty
  id_ne := AvroEnvelope.eveOfEpoch.id_ne
  source_ne := AvroEnvelope.eveOfEpoch.source_ne
  type_ne := AvroEnvelope.eveOfEpoch.type_ne

/-- A control character is written as it is, and then no document is; and a carriage return that is
written as it is comes back as a line feed. -/
theorem about_unread :
    (∃ raw, EventFormat.xml.serialize (about "\x01") = .ok raw ∧
      ¬∃ root, Grammar.Denotes raw root) ∧
    ∃ raw root, EventFormat.xml.serialize (about "a\rb") = .ok raw ∧ Grammar.Denotes raw root ∧
      ¬root.Says "subject".toList "a\rb".toList := by
  have hxs : ∀ s, ExtensionValue.ofEntries (about s).extensions.entries = .ok [] := fun _ => rfl
  have hnames : ∀ x ∈ ([] : List (Text × ExtensionValue)), Grammar.isNCName x.1 :=
    List.forall_mem_nil _
  have hdenotes : ∀ {s raw}, EventFormat.xml.serialize (about s) = .ok raw → ∀ root,
      Grammar.Denotes raw root ↔ (elementOf (about s) []).Texts IsLegal ∧
        root = (elementOf (about s) []).settled.node :=
    fun h => denotes_iff h (hxs _) hnames
  have hwritten : ∀ s, ∃ raw, EventFormat.xml.serialize (about s) = .ok raw := by
    intro s
    refine (exists_serialize_iff (hxs s) (List.forall_mem_nil _)).mpr
      ⟨Text.loneFree_ofString "1.0", ?_⟩
    rintro name t (⟨a, -, ha⟩ | ⟨v, hv, ht⟩)
    · cases a <;> cases ha <;> exact Text.loneFree_ofString _
    · cases hv
  constructor
  · obtain ⟨raw, hraw⟩ := hwritten "\x01"
    refine ⟨raw, hraw, ?_⟩
    rintro ⟨root, hroot⟩
    have htexts := (texts_elementOf_iff (fun _ h => h) (hxs _)).mp ((hdenotes hraw root).mp hroot).1
    have hsubject := htexts.2 _ _ (.inl ⟨.subject, rfl, rfl⟩)
    exact absurd hsubject (by decide)
  · obtain ⟨raw, hraw⟩ := hwritten "a\rb"
    have hlegal : ∀ name t, (about "a\rb").Carries name t → IsLegal t := by
      rintro name t (⟨a, -, ha⟩ | ⟨v, hv, ht⟩)
      · cases a <;> cases ha <;> decide
      · cases hv
    have htexts := (texts_elementOf_iff (fun _ h => h) (hxs "a\rb")).mpr ⟨by decide, hlegal⟩
    refine ⟨raw, _, hraw, (hdenotes hraw _).mpr ⟨htexts, rfl⟩, fun hheard => ?_⟩
    obtain ⟨t, -, ht⟩ := (says_node_iff (proper_elementOf hnames)).mp hheard
    -- No carriage return is left where line ends are settled.
    have hmem : '\r' ∈ Grammar.lineEnds t.chars := by
      rw [← ht]
      decide
    exact Grammar.notMem_lineEndsFrom false hmem

end XmlEnvelope

end CloudEnvelope
