import CloudEnvelope.Format.Basic
import CloudEnvelope.Proofs.Base64
import CloudEnvelope.Proofs.Event.Builder
import CloudEnvelope.Proofs.Extension
import CloudEnvelope.Proofs.Json.Number
import CloudEnvelope.Proofs.Text.Utf8
import CloudEnvelope.Proofs.Xml.Reader
import Mathlib.Data.List.Nodup

/-!
# What events in XML say

`XmlEnvelope.serialize_eq_ok_iff`: which events XML has a form for, and which element is written.
This element is read back from the bytes (`XmlEnvelope.root?_of_serialize`), and since attributes,
extensions and data are told apart by their names, it gives away everything that is written of an
event: `XmlEnvelope.serialize_eq_iff_agree` says that two events have the same bytes exactly when
they agree on all of it.
-/

namespace CloudEnvelope.XmlEnvelope

/-! ### Names -/

/-- No mark of markup can stand in an identifier. -/
theorem notMem_identifier {c : Char} (hc : c ∈ Xml.marks) :
    CodePointSet.identifierStart.contains c.toNat = false ∧
      CodePointSet.identifierContinue.contains c.toNat = false := by
  simp only [Xml.marks, List.mem_cons, List.not_mem_nil, or_false] at hc
  rcases hc with rfl | rfl | rfl | rfl | rfl | rfl <;> decide

theorem isName_of_isIdentifier {t : Text} (h : t.isIdentifier) : Xml.IsName t := by
  intro c hc hmem
  obtain ⟨hstart, hcontinue⟩ := notMem_identifier hc
  cases t with
  | nil => cases hmem
  | cons d rest =>
    rw [Text.isIdentifier, Bool.and_eq_true, List.all_eq_true] at h
    rcases List.mem_cons.mp hmem with rfl | hmem
    · rw [CodePoint.toNat, hstart] at h
      cases h.1
    · have hpart := h.2 _ hmem
      rw [CodePoint.toNat, hcontinue] at hpart
      cases hpart

/-- What can stand for an extension is a name in markup. -/
theorem isName_of_isElementName {name : Text} (h : isElementName name) : Xml.IsName name := by
  rcases Bool.or_eq_true_iff.mp h with h | h
  · exact isName_of_isIdentifier h
  · intro c hc hmem
    -- A mark is no hyphen, so it would still be there.
    have hne : CodePoint.scalar c ≠ .scalar '-' := by
      rintro ⟨⟩
      exact absurd hc (by decide)
    refine isName_of_isIdentifier h c hc (List.mem_flatMap.mpr ⟨_, hmem, ?_⟩)
    rw [if_neg hne]
    exact List.mem_singleton_self _

/-- Which names attributes and the data have, and extensions do not. -/
theorem isName_attribute (a : ContextAttribute) : Xml.IsName a.name := by
  cases a <;> decide

theorem isName_typed (typeName : String) : Xml.IsName (typed typeName).name :=
  show Xml.IsName ("xsi:type" : Text) by decide

theorem isForbidden_attribute (a : ContextAttribute) : ExtensionValue.isForbidden a.name := by
  cases a <;> decide

theorem isForbidden_data : ExtensionValue.isForbidden "data" := by decide

theorem attribute_ne_data (a : ContextAttribute) : (a.name : Text) ≠ ("data" : Text) := by
  cases a <;> decide

/-! ### Elements -/

/-- The element of an extension value. -/
def leafOf (x : Text × ExtensionValue) : Xml.Leaf :=
  ⟨x.1, [typed (typedText x.2).1], (typedText x.2).2⟩

/-- The elements of the attributes, in their order. -/
def attributeLeaves (e : Event) : List Xml.Leaf :=
  ContextAttribute.all.filterMap fun a => (e.attribute? a).map (attributeLeaf a.name)

/-- The attributes of the element of an event. -/
def rootAttributes (e : Event) : List Xml.Attribute :=
  [⟨"xmlns:xs", "http://www.w3.org/2001/XMLSchema"⟩,
    ⟨"xmlns:xsi", "http://www.w3.org/2001/XMLSchema-instance"⟩,
    ⟨"specversion", e.specversion⟩,
    ⟨"xmlns", "http://cloudevents.io/xmlformat/V1"⟩]

/-- The element of an event whose extensions have been accepted. -/
def elementOf (e : Event) (xs : List (Text × ExtensionValue)) : Xml.Element where
  name := "event"
  attributes := rootAttributes e
  children := attributeLeaves e ++ xs.map leafOf ++ dataLeaf e.data

theorem attributeLeaves_eq (e : Event) :
    (e.attributes.filter (·.1 ≠ "specversion")).map (fun a => attributeLeaf a.1 a.2)
      = attributeLeaves e := by
  have hnames : ∀ a : ContextAttribute, a.name ≠ "specversion" := fun a => by
    cases a <;> decide
  rw [Event.attributes_eq, List.filter_cons_of_neg (by simp), List.filter_eq_self.mpr]
  · rw [List.map_filterMap, attributeLeaves]
    simp only [Option.map_map]
    rfl
  · intro x hx
    obtain ⟨a, -, hx⟩ := List.mem_filterMap.mp hx
    obtain ⟨v, -, rfl⟩ := Option.map_eq_some_iff.mp hx
    exact decide_eq_true (hnames a)

/-- An extension has an element when it is accepted, its name can be one of an element, and its
value can be written as text. -/
theorem extensionLeaf_eq_ok_iff {x : Text × Value} {leaf : Xml.Leaf} :
    extensionLeaf x.1 x.2 = .ok leaf ↔
      ∃ y, ExtensionValue.Reads x y ∧ (isElementName y.1 ∧ y.2.isSpelled) ∧ leafOf y = leaf := by
  rw [extensionLeaf]
  split
  · rename_i hname
    constructor
    · intro h
      split at h
      · cases h
      · rename_i v hv
        dsimp only at h
        split at h
        · rename_i hspelled
          cases h
          exact ⟨(x.1, v), ⟨rfl, hv⟩, ⟨hname, hspelled⟩, rfl⟩
        · cases h
    · rintro ⟨⟨name, v⟩, ⟨rfl, hv⟩, ⟨-, hspelled⟩, rfl⟩
      simp only [hv]
      rw [if_pos hspelled]
      rfl
  · rename_i hname
    simp only [reduceCtorEq, false_iff]
    rintro ⟨y, ⟨hsame, -⟩, ⟨hy, -⟩, -⟩
    rw [hsame] at hy
    exact hname hy

theorem mapM_extensionLeaf_eq_ok_iff {es : List (Text × Value)} {leaves : List Xml.Leaf} :
    (es.mapM fun x => extensionLeaf x.1 x.2) = .ok leaves ↔
      ∃ xs, ExtensionValue.ofEntries es = .ok xs ∧
        (∀ x ∈ xs, isElementName x.1 ∧ x.2.isSpelled) ∧ xs.map leafOf = leaves := by
  rw [Except.mapM_eq_ok_iff]
  simp only [ExtensionValue.ofEntries_eq_ok_iff, extensionLeaf_eq_ok_iff]
  induction es generalizing leaves with
  | nil =>
    simp only [List.forall₂_nil_left_iff]
    constructor
    · rintro rfl
      exact ⟨[], rfl, fun _ hx => absurd hx List.not_mem_nil, rfl⟩
    · rintro ⟨_, rfl, -, rfl⟩
      rfl
  | cons x rest ih =>
    simp only [List.forall₂_cons_left_iff, ih]
    constructor
    · rintro ⟨_, _, ⟨y, hy, hname, rfl⟩, ⟨ys, hys, hnames, rfl⟩, rfl⟩
      exact ⟨y :: ys, ⟨y, ys, hy, hys, rfl⟩, List.forall_mem_cons.mpr ⟨hname, hnames⟩, rfl⟩
    · rintro ⟨_, ⟨y, ys, hy, hys, rfl⟩, hnames, rfl⟩
      obtain ⟨hname, hnames⟩ := List.forall_mem_cons.mp hnames
      exact ⟨_, _, ⟨y, hy, hname, rfl⟩, ⟨ys, hys, hnames, rfl⟩, rfl⟩

/-- What is written is the declaration and the element of the accepted extensions. -/
theorem serialize_eq_ok_iff {e : Event} {raw : Bytes} :
    serialize e = .ok raw ↔ ∃ xs, ExtensionValue.ofEntries e.extensions.entries = .ok xs ∧
      (∀ x ∈ xs, isElementName x.1 ∧ x.2.isSpelled) ∧
        ∃ bytes, (elementOf e xs).write.utf8? = some bytes ∧
          Utf8.ofString declaration ++ bytes = raw := by
  rw [serialize, element]
  simp only [Except.bind_eq_ok_iff, mapM_extensionLeaf_eq_ok_iff, attributeLeaves_eq]
  constructor
  · rintro ⟨_, ⟨_, ⟨xs, hxs, hnames, rfl⟩, ⟨⟩⟩, h⟩
    refine ⟨xs, hxs, hnames, ?_⟩
    split at h
    · rename_i bytes hbytes
      cases h
      exact ⟨bytes, hbytes, rfl⟩
    · cases h
  · rintro ⟨xs, hxs, hnames, bytes, hbytes, rfl⟩
    refine ⟨elementOf e xs, ⟨_, ⟨xs, hxs, hnames, rfl⟩, rfl⟩, ?_⟩
    rw [hbytes]
    rfl

theorem wellNamed_attributeLeaf (a : ContextAttribute) (v : AttributeValue) :
    (attributeLeaf a.name v).WellNamed := by
  refine ⟨isName_attribute a, fun x hx => ?_⟩
  obtain ⟨typeName, -, rfl⟩ := Option.map_eq_some_iff.mp (Option.mem_toList.mp hx)
  exact isName_typed typeName

theorem wellNamed_elementOf {e : Event} {xs : List (Text × ExtensionValue)}
    (hnames : ∀ x ∈ xs, isElementName x.1) : (elementOf e xs).WellNamed := by
  have htyped : ∀ typeName, ∀ a ∈ [typed typeName], Xml.IsName a.name := by
    intro typeName a ha
    rw [List.mem_singleton.mp ha]
    exact isName_typed typeName
  have hroot : ∀ name ∈ ["event", "xmlns:xs", "xmlns:xsi", "specversion", "xmlns", "data"],
      Xml.IsName (Text.ofString name) := by decide
  refine ⟨hroot "event" (by decide), fun a ha => ?_, fun l hl => ?_⟩
  · simp only [elementOf, rootAttributes, List.mem_cons, List.not_mem_nil, or_false] at ha
    rcases ha with rfl | rfl | rfl | rfl <;> exact hroot _ (by decide)
  · simp only [elementOf, List.mem_append] at hl
    rcases hl with (hl | hl) | hl
    · obtain ⟨a, -, hl⟩ := List.mem_filterMap.mp hl
      obtain ⟨v, -, rfl⟩ := Option.map_eq_some_iff.mp hl
      exact wellNamed_attributeLeaf a v
    · obtain ⟨x, hx, rfl⟩ := List.mem_map.mp hl
      exact ⟨isName_of_isElementName (hnames x hx), htyped _⟩
    · rw [dataLeaf] at hl
      split at hl
      · cases hl
      · rw [List.mem_singleton.mp hl]
        exact ⟨hroot "data" (by decide), htyped _⟩

/-! ### Reading back -/

/-- The element behind the declaration. -/
def root? (raw : Bytes) : Option Xml.Element :=
  if (Utf8.ofString declaration).isPrefixOf raw then do
    let cs ← Utf8.decode? (raw.drop (Utf8.ofString declaration).length)
    Xml.read? (Text.ofChars cs)
  else none

/-- The element that was written is read back. -/
theorem root?_of_serialize {e : Event} {raw : Bytes} (h : serialize e = .ok raw) :
    ∃ xs, ExtensionValue.ofEntries e.extensions.entries = .ok xs ∧
      root? raw = some (elementOf e xs) := by
  obtain ⟨xs, hxs, hnames, bytes, hbytes, rfl⟩ := serialize_eq_ok_iff.mp h
  obtain ⟨cs, hcs, rfl⟩ := Text.utf8?_eq_some_iff.mp hbytes
  have hdeclared : (Utf8.ofString declaration).isPrefixOf
      (Utf8.ofString declaration ++ Utf8.encode cs) :=
    List.isPrefixOf_iff_prefix.mpr (List.prefix_append _ _)
  refine ⟨xs, hxs, ?_⟩
  rw [root?, if_pos hdeclared, List.drop_left, Utf8.decode?_encode, Option.bind_eq_bind,
    Option.bind_some, ← hcs]
  exact Xml.read?_write (wellNamed_elementOf fun x hx => (hnames x hx).1)

/-! ### What an element says -/

/-- A child of the name has the text. -/
def Says (root : Xml.Element) (name t : Text) : Prop :=
  ∃ l ∈ root.children, l.name = name ∧ l.text = t

variable {e f : Event} {xs ys : List (Text × ExtensionValue)}

/-- The text of an extension does not depend on whether it stands in a header or in an element. -/
theorem typedText_text (x : ExtensionValue) : (typedText x).2 = x.headerText := by
  cases x <;> rfl

theorem mem_dataLeaf_iff {l : Xml.Leaf} {data : Bytes} :
    l ∈ dataLeaf data ↔
      data ≠ [] ∧ l = ⟨"data", [typed "xs:base64Binary"], Base64.encodeString data⟩ := by
  cases data <;> simp [dataLeaf]

theorem mem_children_iff {l : Xml.Leaf} :
    l ∈ (elementOf e xs).children ↔
      (∃ a v, e.attribute? a = some v ∧ attributeLeaf a.name v = l) ∨ (∃ x ∈ xs, leafOf x = l) ∨
        l ∈ dataLeaf e.data := by
  have hattributes : l ∈ attributeLeaves e ↔
      ∃ a v, e.attribute? a = some v ∧ attributeLeaf a.name v = l := by
    simp only [attributeLeaves, List.mem_filterMap, Option.map_eq_some_iff]
    exact exists_congr fun a => and_iff_right a.mem_all
  rw [elementOf, List.mem_append, List.mem_append, hattributes, List.mem_map, or_assoc]

/-- No extension has the name of an attribute or of the data. -/
theorem ne_of_isForbidden (hnames : ∀ x ∈ xs, ¬ExtensionValue.isForbidden x.1)
    {x : Text × ExtensionValue} (hx : x ∈ xs) {name : Text} (h : ExtensionValue.isForbidden name) :
    x.1 ≠ name := by
  rintro rfl
  exact hnames x hx h

/-- Children of forbidden names are attributes or data, and all others are extensions. -/
theorem filter_children (hnames : ∀ x ∈ xs, ¬ExtensionValue.isForbidden x.1) :
    (elementOf e xs).children.filter (fun l => !ExtensionValue.isForbidden l.name)
      = xs.map leafOf := by
  have hattributes : (attributeLeaves e).filter (fun l => !ExtensionValue.isForbidden l.name)
      = [] := by
    rw [List.filter_eq_nil_iff]
    intro l hl
    obtain ⟨a, -, hl⟩ := List.mem_filterMap.mp hl
    obtain ⟨v, -, rfl⟩ := Option.map_eq_some_iff.mp hl
    simpa [attributeLeaf] using isForbidden_attribute a
  have hextensions : (xs.map leafOf).filter (fun l => !ExtensionValue.isForbidden l.name)
      = xs.map leafOf := by
    rw [List.filter_eq_self]
    intro l hl
    obtain ⟨x, hx, rfl⟩ := List.mem_map.mp hl
    simpa [leafOf] using hnames x hx
  have hdata : (dataLeaf e.data).filter (fun l => !ExtensionValue.isForbidden l.name) = [] := by
    rw [List.filter_eq_nil_iff]
    intro l hl
    obtain ⟨-, rfl⟩ := mem_dataLeaf_iff.mp hl
    simpa using isForbidden_data
  rw [elementOf, List.filter_append, List.filter_append, hattributes, hextensions, hdata,
    List.nil_append, List.append_nil]

/-- The child of an attribute's name has the text of its value. -/
theorem says_attribute_iff (hnames : ∀ x ∈ xs, ¬ExtensionValue.isForbidden x.1)
    (a : ContextAttribute) (t : Text) :
    Says (elementOf e xs) a.name t ↔
      (e.attribute? a).map (fun v => (attributeLeaf a.name v).text) = some t := by
  rw [Option.map_eq_some_iff]
  constructor
  · rintro ⟨l, hl, hname, rfl⟩
    rcases mem_children_iff.mp hl with ⟨b, v, hv, rfl⟩ | ⟨x, hx, rfl⟩ | hl
    · obtain rfl : b = a := ContextAttribute.name_inj.mp hname
      exact ⟨v, hv, rfl⟩
    · exact absurd hname (ne_of_isForbidden hnames hx (isForbidden_attribute a))
    · obtain ⟨-, rfl⟩ := mem_dataLeaf_iff.mp hl
      exact absurd hname.symm (attribute_ne_data a)
  · rintro ⟨v, hv, rfl⟩
    exact ⟨_, mem_children_iff.mpr (.inl ⟨a, v, hv, rfl⟩), rfl, rfl⟩

/-- The child for the data, if there is one, has the data in base64. -/
theorem says_data_iff (hnames : ∀ x ∈ xs, ¬ExtensionValue.isForbidden x.1) (t : Text) :
    Says (elementOf e xs) "data" t ↔
      e.data ≠ [] ∧ t = Text.ofString (Base64.encodeString e.data) := by
  constructor
  · rintro ⟨l, hl, hname, rfl⟩
    rcases mem_children_iff.mp hl with ⟨a, v, -, rfl⟩ | ⟨x, hx, rfl⟩ | hl
    · exact absurd hname (attribute_ne_data a)
    · exact absurd hname (ne_of_isForbidden hnames hx isForbidden_data)
    · obtain ⟨hne, rfl⟩ := mem_dataLeaf_iff.mp hl
      exact ⟨hne, rfl⟩
  · rintro ⟨hne, rfl⟩
    exact ⟨_, mem_children_iff.mpr (.inr (.inr (mem_dataLeaf_iff.mpr ⟨hne, rfl⟩))), rfl, rfl⟩

/-- The child of an extension's name has the text that a header would have. -/
theorem says_extension_iff (hxs : ExtensionValue.ofEntries e.extensions.entries = .ok xs)
    {x : Text × ExtensionValue} (hx : x ∈ xs) (t : Text) :
    Says (elementOf e xs) x.1 t ↔ t = x.2.headerText := by
  have hnames := ExtensionValue.not_isForbidden_of_ofEntries hxs
  have hnodup : (xs.map (·.1)).Nodup := by
    rw [ExtensionValue.map_fst_of_ofEntries hxs]
    exact e.extensions.nodup
  constructor
  · rintro ⟨l, hl, hname, rfl⟩
    rcases mem_children_iff.mp hl with ⟨a, v, -, rfl⟩ | ⟨y, hy, rfl⟩ | hl
    · exact absurd hname.symm (ne_of_isForbidden hnames hx (isForbidden_attribute a))
    · obtain rfl : y = x := List.inj_on_of_nodup_map hnodup hy hx hname
      exact typedText_text y.2
    · obtain ⟨-, rfl⟩ := mem_dataLeaf_iff.mp hl
      exact absurd hname.symm (ne_of_isForbidden hnames hx isForbidden_data)
  · rintro rfl
    exact ⟨_, mem_children_iff.mpr (.inr (.inl ⟨x, hx, rfl⟩)), rfl, typedText_text x.2⟩

/-! ### Injectivity -/

theorem word_inj : ∀ {a b : Bool}, ExtensionValue.word a = ExtensionValue.word b → a = b := by
  decide

/-- The type that is written keeps apart what texts alone would not: a number is never mistaken for
its digits, nor bytes for their base64. -/
theorem typedText_inj {x y : ExtensionValue} (h : typedText x = typedText y) : x = y := by
  cases x <;> cases y
  case bool.bool a b =>
    rw [word_inj (Text.ofString_inj.mp (Prod.mk.inj h).2)]
  case int.int m n =>
    rw [Json.ofInt_inj.mp (Prod.mk.inj h).2]
  case text.text s t =>
    rw [(Prod.mk.inj h).2]
  case bytes.bytes a b =>
    rw [Base64.encodeString_inj.mp (Text.ofString_inj.mp (Prod.mk.inj h).2)]
  all_goals exact absurd (Prod.mk.inj h).1 (by decide)

theorem leafOf_inj {x y : Text × ExtensionValue} (h : leafOf x = leafOf y) : x = y := by
  obtain ⟨name, v⟩ := x
  obtain ⟨name', v'⟩ := y
  injection h with hname htyped htext
  injection htyped with htyped
  injection htyped with _ htype
  have hpair : typedText v = typedText v' := Prod.ext (Text.ofString_inj.mp htype) htext
  exact Prod.ext hname (typedText_inj hpair)

/-- The events agree on everything that is written of them: of a time the rendered form, and of an
extension the extension value. -/
structure Agree (e f : Event) : Prop where
  specversion : e.specversion = f.specversion
  id : e.id = f.id
  source : e.source = f.source
  type : e.type = f.type
  time : e.time.map DateTime.rfc3339 = f.time.map DateTime.rfc3339
  dataContentType : e.dataContentType = f.dataContentType
  dataSchema : e.dataSchema = f.dataSchema
  subject : e.subject = f.subject
  data : e.data = f.data
  extensions : ExtensionValue.ofEntries e.extensions.entries
    = ExtensionValue.ofEntries f.extensions.entries

/-- The texts of optional attributes come out as they went in. -/
theorem optionalText_inj {name : String} {s t : Option Text}
    (h : (s.map AttributeValue.text).map (fun v => (attributeLeaf name v).text)
      = (t.map AttributeValue.text).map fun v => (attributeLeaf name v).text) : s = t := by
  simpa [attributeLeaf, Function.comp_def] using h

/-- The rendered form of a time comes out as it went in. -/
theorem optionalTime_inj {name : String} {s t : Option DateTime}
    (h : (s.map AttributeValue.time).map (fun v => (attributeLeaf name v).text)
      = (t.map AttributeValue.time).map fun v => (attributeLeaf name v).text) :
    s.map DateTime.rfc3339 = t.map DateTime.rfc3339 := by
  have hinj : Function.Injective Text.ofChars := fun _ _ => Text.ofChars_inj.mp
  refine Option.map_injective hinj ?_
  rw [Option.map_map, Option.map_map] at h ⊢
  exact h

/-- Either neither event has an element for its data, or both have the same base64 in it. -/
theorem data_eq_of_iff {a b : Bytes}
    (h : ∀ t, (a ≠ [] ∧ t = Text.ofString (Base64.encodeString a)) ↔
      (b ≠ [] ∧ t = Text.ofString (Base64.encodeString b))) : a = b := by
  by_cases hempty : a = []
  · by_contra hne
    have hfilled : b ≠ [] := fun hb => hne (hempty.trans hb.symm)
    exact ((h _).mpr ⟨hfilled, rfl⟩).1 hempty
  · have hsame := ((h _).mp ⟨hempty, rfl⟩).2
    exact Base64.encodeString_inj.mp (Text.ofString_inj.mp hsame)

/-- An element is that of one event only, up to agreement. -/
theorem agree_of_elementOf (hxs : ExtensionValue.ofEntries e.extensions.entries = .ok xs)
    (hys : ExtensionValue.ofEntries f.extensions.entries = .ok ys)
    (h : elementOf e xs = elementOf f ys) : Agree e f := by
  have hnames := ExtensionValue.not_isForbidden_of_ofEntries hxs
  have hnames' := ExtensionValue.not_isForbidden_of_ofEntries hys
  have hattribute : ∀ a : ContextAttribute,
      (e.attribute? a).map (fun v => (attributeLeaf a.name v).text)
        = (f.attribute? a).map fun v => (attributeLeaf a.name v).text := by
    intro a
    refine Option.ext fun t => ?_
    rw [← says_attribute_iff hnames, ← says_attribute_iff hnames', h]
  have hversion := congrArg Xml.Element.attributes h
  have hdata : ∀ t, (e.data ≠ [] ∧ t = Text.ofString (Base64.encodeString e.data)) ↔
      (f.data ≠ [] ∧ t = Text.ofString (Base64.encodeString f.data)) := by
    intro t
    rw [← says_data_iff hnames, ← says_data_iff hnames', h]
  have hleaves : xs.map leafOf = ys.map leafOf := by
    rw [← filter_children hnames, h, filter_children hnames']
  constructor
  case specversion => simpa [elementOf, rootAttributes] using hversion
  case id => exact Text.ofString_inj.mp (Option.some.inj (hattribute .id))
  case source => exact Text.ofString_inj.mp (Option.some.inj (hattribute .source))
  case type => exact Text.ofString_inj.mp (Option.some.inj (hattribute .type))
  case time => exact optionalTime_inj (hattribute .time)
  case dataContentType => exact optionalText_inj (hattribute .dataContentType)
  case dataSchema => exact optionalText_inj (hattribute .dataSchema)
  case subject => exact optionalText_inj (hattribute .subject)
  case data => exact data_eq_of_iff hdata
  case extensions =>
    rw [hxs, hys, List.map_injective_iff.mpr (fun _ _ => leafOf_inj) hleaves]

theorem elementOf_of_agree (hxs : ExtensionValue.ofEntries e.extensions.entries = .ok xs)
    (hys : ExtensionValue.ofEntries f.extensions.entries = .ok ys) (h : Agree e f) :
    elementOf e xs = elementOf f ys := by
  obtain rfl : xs = ys := Except.ok.inj (hxs.symm.trans (h.extensions.trans hys))
  have hleaves : attributeLeaves e = attributeLeaves f := by
    refine List.filterMap_congr fun a _ => ?_
    cases a with
    | time =>
      have htime := congrArg (Option.map fun cs =>
        (⟨"time", [typed "xs:dateTime"], Text.ofChars cs⟩ : Xml.Leaf)) h.time
      rw [Option.map_map, Option.map_map] at htime
      rw [Event.attribute?, Event.attribute?, Option.map_map, Option.map_map]
      exact htime
    | id => rw [Event.attribute?, Event.attribute?, h.id]
    | source => rw [Event.attribute?, Event.attribute?, h.source]
    | type => rw [Event.attribute?, Event.attribute?, h.type]
    | dataContentType => rw [Event.attribute?, Event.attribute?, h.dataContentType]
    | dataSchema => rw [Event.attribute?, Event.attribute?, h.dataSchema]
    | subject => rw [Event.attribute?, Event.attribute?, h.subject]
  rw [elementOf, elementOf, rootAttributes, rootAttributes, hleaves, h.specversion, h.data]

/-- Two events are written alike exactly when they agree. -/
theorem serialize_eq_iff_agree {raw raw' : Bytes} (he : EventFormat.xml.serialize e = .ok raw)
    (hf : EventFormat.xml.serialize f = .ok raw') : raw = raw' ↔ Agree e f := by
  constructor
  · rintro rfl
    -- Both elements are read from the same bytes.
    obtain ⟨xs, hxs, hroot⟩ := root?_of_serialize he
    obtain ⟨ys, hys, hroot'⟩ := root?_of_serialize hf
    rw [hroot] at hroot'
    exact agree_of_elementOf hxs hys (Option.some.inj hroot')
  · intro h
    obtain ⟨xs, hxs, -, bytes, hbytes, hraw⟩ := serialize_eq_ok_iff.mp he
    obtain ⟨ys, hys, -, bytes', hbytes', hraw'⟩ := serialize_eq_ok_iff.mp hf
    rw [elementOf_of_agree hxs hys h, hbytes'] at hbytes
    rw [← hraw, ← hraw', Option.some.inj hbytes]

/-- An event at a local midnight, whose extension is held in a buffer. -/
def bufferedMidnight : Event where
  specversion := "1.0"
  id := "7"
  source := "urn:night"
  type := "struck"
  time := some (.midnight ⟨2023, 6, 15, by decide, by decide⟩)
  dataContentType := none
  dataSchema := none
  subject := some []
  data := []
  extensions := .ofList [("n", .buffer [1])]
  id_ne := by decide
  source_ne := by decide
  type_ne := by decide

/-- The same event at midnight in UTC, whose extension does not change any more. -/
def settledMidnight : Event :=
  { bufferedMidnight with
    time := bufferedMidnight.time.map DateTime.assumeUtc
    extensions := .ofList [("n", .bytes [1])] }

theorem serialize_eq_iff_agree_midnight :
    ∃ raw, EventFormat.xml.serialize bufferedMidnight = .ok raw ∧
      EventFormat.xml.serialize settledMidnight = .ok raw ∧
      Agree bufferedMidnight settledMidnight := by
  have hsome : (EventFormat.xml.serialize bufferedMidnight).toOption.isSome := by decide +kernel
  have hsame : (EventFormat.xml.serialize bufferedMidnight).toOption
      = (EventFormat.xml.serialize settledMidnight).toOption := by decide +kernel
  obtain ⟨raw, hraw⟩ := Option.isSome_iff_exists.mp hsome
  rw [hraw] at hsame
  have he := Except.toOption_eq_some_iff.mp hraw
  have hf := Except.toOption_eq_some_iff.mp hsame.symm
  exact ⟨raw, he, hf, (serialize_eq_iff_agree he hf).mp rfl⟩

end CloudEnvelope.XmlEnvelope
