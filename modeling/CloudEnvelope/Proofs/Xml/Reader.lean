import CloudEnvelope.Proofs.Text.Split
import CloudEnvelope.Xml.Element

/-!
# Written elements read back

`Xml.read?` reads elements in the form in which `Xml.Element.write` prints them, and
`Xml.read?_write` says that a written element is read as itself, provided that its names hold none
of the characters that end a name in markup.

What makes this work is that escaped texts hold no angle brackets and escaped values no quotation
marks either.  So an angle bracket always begins or ends a tag, whatever texts and values hold, and
inside a tag a quotation mark always begins or ends a value.
-/

namespace CloudEnvelope.Xml

/-! ### References -/

/-- The references that are written, and the characters that they stand for. -/
def references : List (String × Char) :=
  [("amp", '&'), ("lt", '<'), ("gt", '>'), ("quot", '"'), ("#13", '\r'), ("#10", '\n'),
    ("#09", '\t')]

/-- The character that a reference of this name stands for. -/
def reference? (name : Text) : Option Char :=
  (references.find? fun r => (r.1 : Text) == name).map (·.2)

/-- Reads a text with references: in the middle of a reference, with the name so far, or outside of
any. -/
def unescapeFrom? : Option Text → Text → Option Text
  | none, [] => some []
  | some _, [] => none
  | none, c :: rest =>
    if c = .scalar '&' then unescapeFrom? (some []) rest
    else (unescapeFrom? none rest).map (c :: ·)
  | some name, c :: rest =>
    if c = .scalar ';' then
      match reference? name with
      | some r => (unescapeFrom? none rest).map (.scalar r :: ·)
      | none => none
    else unescapeFrom? (some (name ++ [c])) rest

/-- The text that is written with references. -/
def unescape? (t : Text) : Option Text := unescapeFrom? none t

/-! ### Tags -/

/-- The tags of a text that begins with one, each with the text behind it.  A tag is what stands
between angle brackets. -/
def tags? (t : Text) : Option (List (Text × Text)) :=
  match t.splitOn (.scalar '<') with
  | [] :: pieces => pieces.mapM fun piece =>
    match Text.splitFirst '>' piece with
    | (tag, some after) => some (tag, after)
    | (_, none) => none
  | _ => none

/-- The name of an attribute, from what stands between two values. -/
def attributeName? : Text → Option Text
  | .scalar ' ' :: key =>
    match Text.splitFirst '=' key with
    | (name, some []) => some name
    | _ => none
  | _ => none

/-- The attributes of a tag and what follows them, from the parts between quotation marks. -/
def attributes? : List Text → Option (List Attribute × Text)
  | [] => none
  | [last] => some ([], last)
  | key :: quoted :: rest => do
    let name ← attributeName? key
    let value ← unescape? quoted
    let (attributes, last) ← attributes? rest
    some (⟨name, value⟩ :: attributes, last)

/-- A tag that begins an element, or is the whole of one. -/
structure StartTag where
  name : Text
  attributes : List Attribute
  closed : Bool

/-- The code point does not end the name of a tag. -/
def isNamePart (c : CodePoint) : Bool := c ≠ .scalar ' '

/-- Reads a tag that begins an element. -/
def startTag? (tag : Text) : Option StartTag := do
  let (attributes, last) ← attributes? ((tag.dropWhile isNamePart).splitOn (.scalar '"'))
  if last = [] then some ⟨tag.takeWhile isNamePart, attributes, false⟩
  else if last = " /" then some ⟨tag.takeWhile isNamePart, attributes, true⟩
  else none

/-- The tag that ends an element. -/
def endTag (name : Text) : Text := "/" ++ name

/-! ### Elements -/

/-- The elements that hold texts, one after another. -/
def leaves? : List (Text × Text) → Option (List Leaf)
  | [] => some []
  | (tag, after) :: rest =>
    match startTag? tag, rest with
    | some ⟨name, attributes, true⟩, rest =>
      if after = [] then (leaves? rest).map (⟨name, attributes, []⟩ :: ·) else none
    | some ⟨name, attributes, false⟩, next :: rest =>
      if next = (endTag name, []) then do
        let text ← unescape? after
        (leaves? rest).map (⟨name, attributes, text⟩ :: ·)
      else none
    | _, _ => none

/-- The element of a text. -/
def read? (t : Text) : Option Element := do
  let (tag, after) :: rest ← tags? t | none
  let start ← startTag? tag
  if after ≠ [] then none
  else if start.closed then
    if rest = [] then some ⟨start.name, start.attributes, []⟩ else none
  else if rest.getLast? = some (endTag start.name, []) then
    (leaves? rest.dropLast).map fun children => ⟨start.name, start.attributes, children⟩
  else none

/-! ### Names -/

/-- The characters that names end at. -/
def marks : List Char := ['<', '>', '"', ' ', '=', '/']

/-- The text can be told from the markup around it. -/
def IsName (name : Text) : Prop := ∀ c ∈ marks, CodePoint.scalar c ∉ name

instance (name : Text) : Decidable (IsName name) :=
  List.decidableBAll (fun c => CodePoint.scalar c ∉ name) marks

/-- The names of an element that holds a text. -/
structure Leaf.WellNamed (l : Leaf) : Prop where
  name : IsName l.name
  attributes : ∀ a ∈ l.attributes, IsName a.name

/-- The names of an element and of those inside it. -/
structure Element.WellNamed (e : Element) : Prop where
  name : IsName e.name
  attributes : ∀ a ∈ e.attributes, IsName a.name
  children : ∀ l ∈ e.children, l.WellNamed

/-! ### Escaping -/

/-- A reference as it is written. -/
def referenceText (name : Text) : Text := .scalar '&' :: (name ++ [.scalar ';'])

/-- Each code point is written as itself, which the given marks never are, or as a reference that
stands for it. -/
def Escapes (kept : List Char) (f : CodePoint → Text) : Prop :=
  ∀ c, (f c = [c] ∧ ∀ k ∈ kept, c ≠ .scalar k) ∨
    ∃ r ∈ references, c = .scalar r.2 ∧ f c = referenceText r.1

theorem escapes_escapePoint : Escapes ['&', '<', '>'] escapePoint := by
  intro c
  unfold escapePoint
  split
  · exact .inr ⟨("amp", '&'), by decide, ‹_›, rfl⟩
  split
  · exact .inr ⟨("lt", '<'), by decide, ‹_›, rfl⟩
  split
  · exact .inr ⟨("gt", '>'), by decide, ‹_›, rfl⟩
  · exact .inl ⟨rfl, by simp_all⟩

theorem escapes_escapeQuotedPoint :
    Escapes ['&', '<', '>', '"', '\r', '\n', '\t'] escapeQuotedPoint := by
  intro c
  unfold escapeQuotedPoint
  split
  · exact .inr ⟨("quot", '"'), by decide, ‹_›, rfl⟩
  split
  · exact .inr ⟨("#13", '\r'), by decide, ‹_›, rfl⟩
  split
  · exact .inr ⟨("#10", '\n'), by decide, ‹_›, rfl⟩
  split
  · exact .inr ⟨("#09", '\t'), by decide, ‹_›, rfl⟩
  · rcases escapes_escapePoint c with ⟨hc, hkept⟩ | hreference
    · exact .inl ⟨hc, by simp_all⟩
    · exact .inr hreference

/-- Every reference is read as the character that it stands for. -/
theorem unescapeFrom?_referenceText {r : String × Char} (hr : r ∈ references) (rest : Text) :
    unescapeFrom? none (referenceText r.1 ++ rest)
      = (unescapeFrom? none rest).map (.scalar r.2 :: ·) := by
  simp only [references, List.mem_cons, List.not_mem_nil, or_false] at hr
  rcases hr with rfl | rfl | rfl | rfl | rfl | rfl | rfl <;> rfl

variable {kept : List Char} {f : CodePoint → Text}

theorem unescapeFrom?_of_escapes (hf : Escapes kept f) (hamp : '&' ∈ kept) (c : CodePoint)
    (rest : Text) :
    unescapeFrom? none (f c ++ rest) = (unescapeFrom? none rest).map (c :: ·) := by
  rcases hf c with ⟨hc, hkept⟩ | ⟨r, hr, rfl, hc⟩
  · rw [hc, List.singleton_append, unescapeFrom?, if_neg (hkept '&' hamp)]
  · rw [hc, unescapeFrom?_referenceText hr]

/-- An escaped text is read as the text. -/
theorem unescape?_flatMap (hf : Escapes kept f) (hamp : '&' ∈ kept) (t : Text) :
    unescape? (t.flatMap f) = some t := by
  induction t with
  | nil => rfl
  | cons c t ih =>
    rw [unescape?] at ih
    rw [unescape?, List.flatMap_cons, unescapeFrom?_of_escapes hf hamp, ih, Option.map_some]

/-- A mark that stands in no reference is gone from an escaped text. -/
theorem notMem_flatMap (hf : Escapes kept f) {k : Char} (hk : k ∈ kept)
    (hreferences : ∀ r ∈ references, CodePoint.scalar k ∉ referenceText r.1) (t : Text) :
    CodePoint.scalar k ∉ t.flatMap f := by
  rw [List.mem_flatMap]
  rintro ⟨c, -, hmem⟩
  rcases hf c with ⟨hc, hkept⟩ | ⟨r, hr, -, hc⟩
  · rw [hc, List.mem_singleton] at hmem
    exact hkept k hk hmem.symm
  · rw [hc] at hmem
    exact hreferences r hr hmem

theorem unescape?_escape (t : Text) : unescape? (escape t) = some t :=
  unescape?_flatMap escapes_escapePoint (by decide) t

theorem unescape?_escapeQuoted (t : Text) : unescape? (escapeQuoted t) = some t :=
  unescape?_flatMap escapes_escapeQuotedPoint (by decide) t

theorem notMem_escape {k : Char} (hk : k ∈ ['<', '>']) (t : Text) :
    CodePoint.scalar k ∉ escape t := by
  simp only [List.mem_cons, List.not_mem_nil, or_false] at hk
  rcases hk with rfl | rfl <;>
    exact notMem_flatMap escapes_escapePoint (by decide) (by decide) t

theorem notMem_escapeQuoted {k : Char} (hk : k ∈ ['<', '>', '"']) (t : Text) :
    CodePoint.scalar k ∉ escapeQuoted t := by
  simp only [List.mem_cons, List.not_mem_nil, or_false] at hk
  rcases hk with rfl | rfl | rfl <;>
    exact notMem_flatMap escapes_escapeQuotedPoint (by decide) (by decide) t

/-- Nothing but an empty text is written as an empty text. -/
theorem escape_eq_nil_iff {t : Text} : escape t = [] ↔ t = [] := by
  refine ⟨fun h => ?_, fun h => by rw [h]; rfl⟩
  have hread := unescape?_escape t
  rw [h] at hread
  exact (Option.some.inj hread).symm

/-! ### Tags -/

/-- What is written between the angle brackets of a tag that begins an element. -/
def tagText (name : Text) (attributes : List Attribute) (closed : Bool) : Text :=
  name ++ (attributes.flatMap Attribute.write ++ if closed then (" /" : Text) else [])

/-- What stands before the value of an attribute. -/
def attributeKey (name : Text) : Text := .scalar ' ' :: (name ++ [.scalar '='])

theorem Attribute.write_eq (a : Attribute) :
    a.write = attributeKey a.name ++ .scalar '"' :: (escapeQuoted a.value ++ [.scalar '"']) := by
  have hstart : Text.ofString " " = [.scalar ' '] := rfl
  have hmiddle : Text.ofString "=\"" = [.scalar '=', .scalar '"'] := rfl
  have hfinal : Text.ofString "\"" = [.scalar '"'] := rfl
  simp [Attribute.write, attributeKey, hstart, hmiddle, hfinal]

theorem attributes?_splitOn {attributes : List Attribute} (h : ∀ a ∈ attributes, IsName a.name)
    {last : Text} (hlast : CodePoint.scalar '"' ∉ last) :
    attributes? ((attributes.flatMap Attribute.write ++ last).splitOn (.scalar '"'))
      = some (attributes, last) := by
  induction attributes with
  | nil =>
    rw [List.flatMap_nil, List.nil_append, List.splitOn_eq_singleton hlast]
    rfl
  | cons a rest ih =>
    have ha : IsName a.name := h a List.mem_cons_self
    -- The first quotation mark ends the key, and the second the value, which holds none itself.
    have hkey : CodePoint.scalar '"' ∉ attributeKey a.name := by
      simp [attributeKey, ha '"' (by decide)]
    have hsplit : ((a :: rest).flatMap Attribute.write ++ last).splitOn (.scalar '"')
        = attributeKey a.name :: escapeQuoted a.value ::
          (rest.flatMap Attribute.write ++ last).splitOn (.scalar '"') := by
      rw [List.flatMap_cons, Attribute.write_eq, List.append_assoc, List.append_assoc,
        List.cons_append, List.splitOn_append_cons_self_of_not_mem hkey, List.append_assoc,
        List.singleton_append,
        List.splitOn_append_cons_self_of_not_mem (notMem_escapeQuoted (by decide) a.value)]
    have hname : attributeName? (attributeKey a.name) = some a.name := by
      rw [attributeKey, attributeName?, Text.splitFirst_append (ha '=' (by decide))]
    rw [hsplit, attributes?, hname, unescape?_escapeQuoted,
      ih fun b hb => h b (List.mem_cons_of_mem _ hb)]
    rfl

/-- What is written of a tag behind its name begins with a space, if there is anything. -/
theorem tagEnd_cases (attributes : List Attribute) (closed : Bool) :
    let rest := attributes.flatMap Attribute.write ++ if closed then (" /" : Text) else []
    rest = [] ∨ ∃ more, rest = .scalar ' ' :: more := by
  cases attributes with
  | nil =>
    cases closed with
    | true => exact .inr ⟨[.scalar '/'], rfl⟩
    | false => exact .inl rfl
  | cons a rest =>
    refine .inr ?_
    rw [List.flatMap_cons, Attribute.write_eq]
    exact ⟨_, rfl⟩

/-- A tag that begins an element is read back. -/
theorem startTag?_tagText {name : Text} (hname : IsName name) {attributes : List Attribute}
    (h : ∀ a ∈ attributes, IsName a.name) (closed : Bool) :
    startTag? (tagText name attributes closed) = some ⟨name, attributes, closed⟩ := by
  have hpart : ∀ c ∈ name, isNamePart c := by
    intro c hc
    rw [isNamePart, decide_eq_true_eq]
    rintro rfl
    exact hname ' ' (by decide) hc
  have hlast : CodePoint.scalar '"' ∉ if closed then (" /" : Text) else [] := by
    cases closed <;> decide
  have hrest := tagEnd_cases attributes closed
  have hattributes := attributes?_splitOn h hlast
  rw [startTag?, tagText, List.takeWhile_append_of_pos hpart, List.dropWhile_append_of_pos hpart]
  -- The name ends where the rest begins, with a space or not at all.
  generalize hend : attributes.flatMap Attribute.write ++ (if closed then (" /" : Text) else [])
    = rest at hrest hattributes
  have hdrop : rest.dropWhile isNamePart = rest := by
    rcases hrest with rfl | ⟨more, rfl⟩ <;> rfl
  have htake : rest.takeWhile isNamePart = [] := by
    rcases hrest with rfl | ⟨more, rfl⟩ <;> rfl
  rw [hdrop, htake, hattributes, List.append_nil]
  cases closed <;> rfl

/-! ### Texts of tags -/

/-- Tags, each with the text behind it. -/
def writeTags (ts : List (Text × Text)) : Text :=
  ts.flatMap fun t => .scalar '<' :: (t.1 ++ .scalar '>' :: t.2)

/-- The angle brackets around a tag are the only ones in it and in the text behind it. -/
structure Bracketed (t : Text × Text) : Prop where
  tag : ∀ c ∈ ['<', '>'], CodePoint.scalar c ∉ t.1
  after : CodePoint.scalar '<' ∉ t.2

theorem splitOn_writeTags {ts : List (Text × Text)} (h : ∀ t ∈ ts, Bracketed t) {before : Text}
    (hbefore : CodePoint.scalar '<' ∉ before) :
    (before ++ writeTags ts).splitOn (.scalar '<')
      = before :: ts.map fun t => t.1 ++ .scalar '>' :: t.2 := by
  induction ts generalizing before with
  | nil =>
    rw [writeTags, List.flatMap_nil, List.append_nil, List.splitOn_eq_singleton hbefore]
    rfl
  | cons t rest ih =>
    obtain ⟨htag, hafter⟩ := h t List.mem_cons_self
    have hpiece : CodePoint.scalar '<' ∉ t.1 ++ .scalar '>' :: t.2 := by
      simp [htag '<' (by decide), hafter]
    -- The text before the tag is a piece, and the tag with its text is before the other tags.
    rw [writeTags, List.flatMap_cons, List.cons_append,
      List.splitOn_append_cons_self_of_not_mem hbefore, List.map_cons]
    exact congrArg (before :: ·) (ih (fun t ht => h t (List.mem_cons_of_mem _ ht)) hpiece)

/-- The tags of a text of tags. -/
theorem tags?_writeTags {ts : List (Text × Text)} (h : ∀ t ∈ ts, Bracketed t) :
    tags? (writeTags ts) = some ts := by
  rw [tags?, ← List.nil_append (writeTags ts), splitOn_writeTags h List.not_mem_nil]
  induction ts with
  | nil => rfl
  | cons t rest ih =>
    have htag := (h t List.mem_cons_self).tag '>' (by decide)
    simp only [List.map_cons, List.mapM_cons, Text.splitFirst_append htag]
    simp only at ih
    rw [ih fun t ht => h t (List.mem_cons_of_mem _ ht)]
    rfl

theorem writeTags_append (ts us : List (Text × Text)) :
    writeTags (ts ++ us) = writeTags ts ++ writeTags us := List.flatMap_append

/-! ### Elements -/

/-- The tags of an element around its content: one tag if there is none. -/
def tagsAround (name : Text) (attributes : List Attribute) (after : Text)
    (inner : List (Text × Text)) : List (Text × Text) :=
  if after = [] ∧ inner = [] then [(tagText name attributes true, [])]
  else (tagText name attributes false, after) :: (inner ++ [(endTag name, [])])

/-- The tags of an element that holds a text. -/
def Leaf.tags (l : Leaf) : List (Text × Text) :=
  tagsAround l.name l.attributes (escape l.text) []

/-- The tags of an element and of those inside it. -/
def Element.tags (e : Element) : List (Text × Text) :=
  tagsAround e.name e.attributes [] (e.children.flatMap Leaf.tags)

/-- An element is written as its tags, around a content that consists of a text and of tags. -/
theorem writeAround_eq (name : Text) (attributes : List Attribute) (after : Text)
    (inner : List (Text × Text)) :
    writeAround name attributes (after ++ writeTags inner)
      = writeTags (tagsAround name attributes after inner) := by
  have hcontent : (after ++ writeTags inner).isEmpty ↔ after = [] ∧ inner = [] := by
    cases after <;> cases inner <;> simp [writeTags]
  -- The writer's strings in terms of the brackets around tags.
  have hopen : Text.ofString "<" = [.scalar '<'] := rfl
  have hshut : Text.ofString ">" = [.scalar '>'] := rfl
  have hempty : Text.ofString " />" = Text.ofString " /" ++ [.scalar '>'] := rfl
  have hend : Text.ofString "</" = .scalar '<' :: Text.ofString "/" := rfl
  rw [writeAround, tagsAround]
  split
  · rename_i h
    rw [if_pos (hcontent.mp h)]
    simp [writeTagStart, writeTags, tagText, hopen, hempty]
  · rename_i h
    rw [if_neg (mt hcontent.mpr h)]
    simp [writeTagStart, writeTags, tagText, endTag, hopen, hshut, hend]

theorem Leaf.write_eq (l : Leaf) : l.write = writeTags l.tags := by
  have h := writeAround_eq l.name l.attributes (escape l.text) []
  rwa [writeTags, List.flatMap_nil, List.append_nil] at h

theorem Element.write_eq (e : Element) : e.write = writeTags e.tags := by
  have hchildren : e.children.flatMap Leaf.write = writeTags (e.children.flatMap Leaf.tags) := by
    induction e.children with
    | nil => rfl
    | cons l rest ih =>
      rw [List.flatMap_cons, List.flatMap_cons, writeTags_append, ih, Leaf.write_eq]
  rw [write, hchildren]
  exact writeAround_eq e.name e.attributes [] _

/-! ### Reading back -/

/-- Names hold no angle bracket. -/
theorem IsName.notMem {name : Text} (h : IsName name) {c : Char} (hc : c ∈ ['<', '>']) :
    CodePoint.scalar c ∉ name := by
  refine h c ?_
  simp only [List.mem_cons, List.not_mem_nil, or_false] at hc
  rcases hc with rfl | rfl <;> decide

/-- No angle bracket and no line end is written inside a tag whose names hold none. -/
theorem notMem_tagText {c : Char} (hc : c ∈ ['<', '>', '\r', '\n']) {name : Text}
    (hname : CodePoint.scalar c ∉ name) {attributes : List Attribute}
    (h : ∀ a ∈ attributes, CodePoint.scalar c ∉ a.name) (closed : Bool) :
    CodePoint.scalar c ∉ tagText name attributes closed := by
  have hpunctuation : CodePoint.scalar c ∉ [CodePoint.scalar ' ', .scalar '=', .scalar '"'] ∧
      CodePoint.scalar c ∉ (" /" : Text) := by
    simp only [List.mem_cons, List.not_mem_nil, or_false] at hc
    rcases hc with rfl | rfl | rfl | rfl <;> decide
  have hvalue : ∀ t, CodePoint.scalar c ∉ escapeQuoted t := by
    simp only [List.mem_cons, List.not_mem_nil, or_false] at hc
    intro t
    rcases hc with rfl | rfl | rfl | rfl <;>
      exact notMem_flatMap escapes_escapeQuotedPoint (by decide) (by decide) t
  have hattributes : CodePoint.scalar c ∉ attributes.flatMap Attribute.write := by
    rw [List.mem_flatMap]
    rintro ⟨a, ha, hmem⟩
    rw [Attribute.write_eq, attributeKey] at hmem
    have hkey := h a ha
    have hquoted := hvalue a.value
    simp_all
  rw [tagText, List.mem_append, List.mem_append]
  rintro (hmem | hmem | hmem)
  · exact hname hmem
  · exact hattributes hmem
  · cases closed with
    | true => exact hpunctuation.2 hmem
    | false => cases hmem

theorem bracketed_tagText {name : Text} (hname : IsName name) {attributes : List Attribute}
    (h : ∀ a ∈ attributes, IsName a.name) (closed : Bool) {after : Text}
    (hafter : CodePoint.scalar '<' ∉ after) : Bracketed (tagText name attributes closed, after) :=
  ⟨fun _ hc => notMem_tagText (List.mem_append_left ['\r', '\n'] hc) (hname.notMem hc)
    (fun a ha => (h a ha).notMem hc) closed, hafter⟩

theorem bracketed_endTag {name : Text} (hname : IsName name) : Bracketed (endTag name, []) := by
  refine ⟨fun c hc => ?_, List.not_mem_nil⟩
  have hslash : CodePoint.scalar c ∉ ("/" : Text) := by
    simp only [List.mem_cons, List.not_mem_nil, or_false] at hc
    rcases hc with rfl | rfl <;> decide
  rw [endTag, List.mem_append]
  rintro (hmem | hmem)
  · exact hslash hmem
  · exact hname.notMem hc hmem

theorem mem_tagsAround {name : Text} {attributes : List Attribute} {after : Text}
    {inner : List (Text × Text)} {t : Text × Text}
    (h : t ∈ tagsAround name attributes after inner) :
    t = (tagText name attributes true, []) ∨ t = (tagText name attributes false, after) ∨
      t ∈ inner ∨ t = (endTag name, []) := by
  rw [tagsAround] at h
  split at h
  · exact .inl (List.mem_singleton.mp h)
  · rw [List.mem_cons, List.mem_append, List.mem_singleton] at h
    exact .inr h

theorem bracketed_tagsAround {name : Text} (hname : IsName name) {attributes : List Attribute}
    (h : ∀ a ∈ attributes, IsName a.name) {after : Text} (hafter : CodePoint.scalar '<' ∉ after)
    {inner : List (Text × Text)} (hinner : ∀ t ∈ inner, Bracketed t) :
    ∀ t ∈ tagsAround name attributes after inner, Bracketed t := by
  intro t ht
  rcases mem_tagsAround ht with rfl | rfl | ht | rfl
  · exact bracketed_tagText hname h true List.not_mem_nil
  · exact bracketed_tagText hname h false hafter
  · exact hinner t ht
  · exact bracketed_endTag hname

theorem Leaf.bracketed_tags {l : Leaf} (h : l.WellNamed) : ∀ t ∈ l.tags, Bracketed t :=
  bracketed_tagsAround h.name h.attributes (notMem_escape (by decide) l.text)
    fun _ ht => absurd ht List.not_mem_nil

theorem Element.bracketed_tags {e : Element} (h : e.WellNamed) : ∀ t ∈ e.tags, Bracketed t := by
  refine bracketed_tagsAround h.name h.attributes List.not_mem_nil fun t ht => ?_
  obtain ⟨l, hl, ht⟩ := List.mem_flatMap.mp ht
  exact Leaf.bracketed_tags (h.children l hl) t ht

theorem leaves?_closed {tag name : Text} {attributes : List Attribute}
    (h : startTag? tag = some ⟨name, attributes, true⟩) (rest : List (Text × Text)) :
    leaves? ((tag, []) :: rest) = (leaves? rest).map (⟨name, attributes, []⟩ :: ·) := by
  rw [leaves?.eq_def]
  simp [h]

theorem leaves?_open {tag name after text : Text} {attributes : List Attribute}
    (h : startTag? tag = some ⟨name, attributes, false⟩) (htext : unescape? after = some text)
    (rest : List (Text × Text)) :
    leaves? ((tag, after) :: (endTag name, []) :: rest)
      = (leaves? rest).map (⟨name, attributes, text⟩ :: ·) := by
  rw [leaves?.eq_def]
  simp [h, htext]

/-- An element that holds a text is read from its tags, whatever follows them. -/
theorem leaves?_tags {l : Leaf} (h : l.WellNamed) (rest : List (Text × Text)) :
    leaves? (l.tags ++ rest) = (leaves? rest).map (l :: ·) := by
  obtain ⟨name, attributes, text⟩ := l
  have hstart : ∀ closed, startTag? (tagText name attributes closed)
      = some ⟨name, attributes, closed⟩ := startTag?_tagText h.name h.attributes
  rw [Leaf.tags, tagsAround]
  split
  · rename_i hempty
    obtain rfl : text = [] := escape_eq_nil_iff.mp hempty.1
    exact leaves?_closed (hstart true) rest
  · exact leaves?_open (hstart false) (unescape?_escape text) rest

theorem leaves?_flatMap_tags {ls : List Leaf} (h : ∀ l ∈ ls, l.WellNamed) :
    leaves? (ls.flatMap Leaf.tags) = some ls := by
  induction ls with
  | nil => rfl
  | cons l rest ih =>
    rw [List.flatMap_cons, leaves?_tags (h l List.mem_cons_self),
      ih fun l hl => h l (List.mem_cons_of_mem _ hl), Option.map_some]

/-- A written element is read as itself. -/
theorem read?_write {e : Element} (h : e.WellNamed) : read? e.write = some e := by
  obtain ⟨name, attributes, children⟩ := e
  have hstart : ∀ closed, startTag? (tagText name attributes closed)
      = some ⟨name, attributes, closed⟩ := startTag?_tagText h.name h.attributes
  have hleaves : leaves? (children.flatMap Leaf.tags) = some children :=
    leaves?_flatMap_tags h.children
  -- The tags are those that were written; the last of them ends the element, unless it is empty.
  rw [read?, Element.write_eq, tags?_writeTags (Element.bracketed_tags h), Element.tags, tagsAround]
  split
  · rename_i hempty
    rw [hempty.2] at hleaves
    obtain rfl : [] = children := Option.some.inj hleaves
    simp [hstart true]
  · simp [hstart false, hleaves]

end CloudEnvelope.Xml
