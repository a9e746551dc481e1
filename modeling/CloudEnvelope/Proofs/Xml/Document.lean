import CloudEnvelope.Proofs.Text.Scalar
import CloudEnvelope.Proofs.Xml.Grammar
import CloudEnvelope.Proofs.Xml.Reader
import Mathlib.Data.List.Nodup

/-!
# Written elements as documents

`Xml.Element.body_write`: an element whose names are names of the grammar is written as the body of
a document.  The tree that the document denotes has the element's own names and values; its texts
are settled, for what a reader sees of a line end is a line feed.  In the values of attributes every
line end is written as a reference, and there it is kept.

Whether the document may hold all of its characters is a question of its own, and
`Xml.Element.isLegal_write_iff` answers it: exactly if it may hold the texts of the element.
Escaping replaces the characters of markup but no others, so it neither adds nor removes any that a
document may not hold.
-/

namespace CloudEnvelope.Xml

open Grammar (isName isChar lineEnds)

/-! ### Escaped texts -/

variable {kept : List Char} {f : CodePoint → Text} {literal : Char → Char}

/-- Every reference denotes the character that it is written for. -/
theorem expandFrom?_referenceText {r : String × Char} (hr : r ∈ references) (rest : List Char) :
    Grammar.expandFrom? literal none ((referenceText r.1).chars ++ rest)
      = (Grammar.expandFrom? literal none rest).map (r.2 :: ·) := by
  simp only [references, List.mem_cons, List.not_mem_nil, or_false] at hr
  rcases hr with rfl | rfl | rfl | rfl | rfl | rfl | rfl <;> rfl

/-- An escaped text expands to the text where nothing that is written as itself stands for anything
else. -/
theorem expandFrom?_flatMap (hf : Escapes kept f) (hamp : '&' ∈ kept)
    (hliteral : ∀ c, c ∉ kept → literal c = c) (t : Text) :
    Grammar.expandFrom? literal none (Text.chars (t.flatMap f)) = some t.chars := by
  induction t with
  | nil => rfl
  | cons c t ih =>
    rw [List.flatMap_cons, Text.chars_append]
    rcases hf c with ⟨hc, hkept⟩ | ⟨r, hr, rfl, hc⟩
    · rw [hc]
      cases c with
      | lone half => exact ih
      | scalar c =>
        have hplain : c ∉ kept := fun hmem => hkept c hmem rfl
        have hne : c ≠ '&' := fun hc => hplain (hc ▸ hamp)
        show Grammar.expandFrom? literal none (c :: Text.chars (t.flatMap f))
          = some (c :: Text.chars t)
        rw [Grammar.expandFrom?, if_neg hne, ih, hliteral c hplain, Option.map_some]
    · rw [hc, expandFrom?_referenceText hr, ih, Text.chars_cons, Option.map_some]

/-- What is written for a text is read as the text between tags. -/
theorem charData?_escape (t : Text) : Grammar.charData? (escape t).chars = some t.chars := by
  have hbracket : ¬"]]>".toList <:+: (escape t).chars := by
    intro h
    have hmem : '>' ∈ (escape t).chars := h.subset (by decide)
    exact notMem_escape (by decide) t (Text.mem_chars_iff.mp hmem)
  rw [Grammar.charData?, if_neg hbracket]
  exact expandFrom?_flatMap escapes_escapePoint (by decide) (fun _ _ => rfl) t

/-- What is written for a value is read as the value between quotation marks. -/
theorem value?_escapeQuoted (t : Text) : Grammar.value? (escapeQuoted t).chars = some t.chars := by
  have hbracket : '<' ∉ (escapeQuoted t).chars :=
    fun h => notMem_escapeQuoted (by decide) t (Text.mem_chars_iff.mp h)
  rw [Grammar.value?, if_neg hbracket]
  refine expandFrom?_flatMap escapes_escapeQuotedPoint (by decide) (fun c hc => ?_) t
  -- All white space but spaces is written with references.
  unfold Grammar.valueLiteral Grammar.isBlank
  split
  · rename_i hblank
    simp only [List.mem_cons, List.not_mem_nil, or_false, decide_eq_true_eq] at hblank
    rcases hblank with rfl | rfl | rfl | rfl
    · rfl
    all_goals exact absurd (by decide) hc
  · rfl

/-! ### Tags -/

/-- The text is a name. -/
def IsProper (name : Text) : Prop := ∃ cs, name = Text.ofChars cs ∧ isName cs

/-- The name and the value of an attribute for the grammar. -/
def Attribute.chars (a : Attribute) : Grammar.Attribute := (a.name.chars, a.value.chars)

/-- The attribute as it is written. -/
def Attribute.raw (a : Attribute) : Grammar.Attribute :=
  (a.name.chars, (escapeQuoted a.value).chars)

theorem attribute?_write {a : Attribute} (h : IsProper a.name) (rest : List Char) :
    Grammar.attribute? (a.write.chars ++ rest) = some (a.raw, rest) := by
  obtain ⟨name, value⟩ := a
  obtain ⟨cs, hcs, hname⟩ := h
  obtain rfl : name = Text.ofChars cs := hcs
  have hquote : '"' ∉ (escapeQuoted value).chars :=
    fun h => notMem_escapeQuoted (by decide) value (Text.mem_chars_iff.mp h)
  have hwritten : (Attribute.write ⟨Text.ofChars cs, value⟩).chars ++ rest
      = ' ' :: (cs ++ '=' :: '"' :: ((escapeQuoted value).chars ++ '"' :: rest)) := by
    simp [Attribute.write_eq, attributeKey]
  have hequals : ∀ more, Grammar.skipBlanks ('=' :: more) = '=' :: more := fun _ => rfl
  have hquoted : ∀ more, Grammar.skipBlanks ('"' :: more) = '"' :: more := fun _ => rfl
  rw [hwritten, Grammar.attribute?, if_pos (by rfl), Grammar.skipBlanks_name hname,
    Grammar.name?_append hname rfl]
  simp [hequals, hquoted, Grammar.upTo?_append hquote, Attribute.raw]

/-- Attributes are read up to what is no attribute. -/
theorem attributes_write {as : List Attribute} (h : ∀ a ∈ as, IsProper a.name) {rest : List Char}
    (hrest : Grammar.attribute? rest = none) :
    Grammar.Attributes (as.map Attribute.raw) (Text.chars (as.flatMap Attribute.write) ++ rest)
      rest := by
  induction as with
  | nil => exact .nil hrest
  | cons a as ih =>
    rw [List.forall_mem_cons] at h
    rw [List.flatMap_cons, Text.chars_append, List.append_assoc]
    exact .cons (attribute?_write h.1 _) (ih h.2)

/-- The values of attributes are read from what is written. -/
theorem mapM_value?_raw (as : List Attribute) :
    (as.map Attribute.raw).mapM (fun raw => (Grammar.value? raw.2).map (raw.1, ·))
      = some (as.map Attribute.chars) := by
  induction as with
  | nil => rfl
  | cons a as ih =>
    rw [List.map_cons, List.mapM_cons, ih, Attribute.raw, value?_escapeQuoted]
    rfl

/-- Names without lone surrogates are told apart by their scalar values. -/
theorem nodup_map_chars {names : List Text} (hnames : ∀ name ∈ names, IsProper name)
    (hnodup : names.Nodup) : (names.map Text.chars).Nodup := by
  refine hnodup.map_on fun x hx y hy hxy => ?_
  obtain ⟨cs, rfl, -⟩ := hnames x hx
  obtain ⟨ds, rfl, -⟩ := hnames y hy
  rw [Text.chars_ofChars, Text.chars_ofChars] at hxy
  rw [hxy]

/-- A tag that begins an element, or is the whole of one. -/
theorem reads_tagText {name : Text} (hname : IsProper name) {as : List Attribute}
    (h : ∀ a ∈ as, IsProper a.name) (hnodup : (as.map (·.name)).Nodup) (closed : Bool)
    (rest : List Char) :
    Grammar.Markup.Reads (.start name.chars (as.map Attribute.chars) closed)
      ((tagText name as closed).chars ++ '>' :: rest) rest := by
  obtain ⟨cs, rfl, hcs⟩ := hname
  have hnames : ((as.map Attribute.chars).map (·.1)).Nodup := by
    have hmap := nodup_map_chars (List.forall_mem_map.mpr h) hnodup
    rw [List.map_map] at hmap ⊢
    exact hmap
  -- What stands behind the attributes is no attribute.
  let final : Text := if closed then " /" else []
  have hfinal : Grammar.attribute? (final.chars ++ '>' :: rest) = none := by
    cases closed <;> rfl
  have hend : Grammar.tagEnd? (final.chars ++ '>' :: rest) = some (closed, rest) := by
    cases closed <;> rfl
  have hbehind : (Text.chars (as.flatMap Attribute.write ++ final) ++ '>' :: rest).head?.any
      Grammar.isNamePart = false := by
    have hcases : as.flatMap Attribute.write ++ final = [] ∨
        ∃ more, as.flatMap Attribute.write ++ final = .scalar ' ' :: more := tagEnd_cases as closed
    rcases hcases with hnone | ⟨more, hmore⟩
    · rw [hnone]
      rfl
    · rw [hmore]
      rfl
  have hwritten : (tagText (Text.ofChars cs) as closed).chars ++ '>' :: rest
      = cs ++ (Text.chars (as.flatMap Attribute.write ++ final) ++ '>' :: rest) := by
    rw [tagText, Text.chars_append, Text.chars_ofChars, List.append_assoc]
  rw [hwritten, Text.chars_ofChars]
  refine .start (Grammar.name?_append hcs hbehind) ?_ hend (mapM_value?_raw as) hnames
  rw [Text.chars_append, List.append_assoc]
  exact attributes_write h hfinal

theorem reads_endTag {name : Text} (hname : IsProper name) (rest : List Char) :
    Grammar.Markup.Reads (.finish name.chars) ((endTag name).chars ++ '>' :: rest) rest := by
  obtain ⟨cs, rfl, hcs⟩ := hname
  refine .marked ?_
  have hslash : (endTag (Text.ofChars cs)).chars = '/' :: cs := by
    rw [endTag, Text.chars_append, Text.chars_ofChars]
    rfl
  have hblanks : Grammar.skipBlanks ('>' :: rest) = '>' :: rest := rfl
  rw [hslash, List.cons_append, Grammar.marked?, Grammar.name?_append hcs rfl]
  simp [hblanks]

/-! ### Content -/

namespace Grammar

/-- An element in a content is what it is on its own. -/
theorem Content.cons {name : List Char} {node : Node} {nodes : List Node}
    {more after rest : List Char} (h : Element node more after)
    (hrest : Content name nodes after rest) :
    Content name (node :: nodes) ('<' :: more) rest := by
  have hnext : ∀ {m : Markup} {after : List Char}, m.Reads more after →
      Next [] m ('<' :: more) after := by
    intro m after hm
    exact .mk (upTo?_append List.not_mem_nil more) (by decide) hm
  cases h with
  | empty h => exact .markup (hnext h) rfl hrest
  | content h hcontent => exact .element (hnext h) hcontent hrest

end Grammar

/-- A written text stands in front of markup. -/
theorem next_escape {m : Grammar.Markup} {more rest : List Char} (h : m.Reads more rest)
    (t : Text) : Grammar.Next t.chars m ((escape t).chars ++ '<' :: more) rest :=
  have hbracket : '<' ∉ (escape t).chars :=
    fun hmem => notMem_escape (by decide) t (Text.mem_chars_iff.mp hmem)
  .mk (Grammar.upTo?_append hbracket more) (charData?_escape t) h

/-- What a written element with a text denotes. -/
def Leaf.node (l : Leaf) : Grammar.Node :=
  .element l.name.chars (l.attributes.map Attribute.chars) (Grammar.Node.chars l.text.chars)

/-- What a written element denotes. -/
def Element.node (e : Element) : Grammar.Node :=
  .element e.name.chars (e.attributes.map Attribute.chars) (e.children.map Leaf.node)

/-- The names of an element that holds a text are names, and no attribute is there twice. -/
structure Leaf.Proper (l : Leaf) : Prop where
  name : IsProper l.name
  attributes : ∀ a ∈ l.attributes, IsProper a.name
  nodup : (l.attributes.map (·.name)).Nodup

/-- The same of an element and of those inside it. -/
structure Element.Proper (e : Element) : Prop where
  name : IsProper e.name
  attributes : ∀ a ∈ e.attributes, IsProper a.name
  nodup : (e.attributes.map (·.name)).Nodup
  children : ∀ l ∈ e.children, l.Proper

/-- An element is written around its content. -/
theorem element_tagsAround {name : Text} (hname : IsProper name) {as : List Attribute}
    (has : ∀ a ∈ as, IsProper a.name) (hnodup : (as.map (·.name)).Nodup) {after : Text}
    {inner : List (Text × Text)} {nodes : List Grammar.Node} {rest : List Char}
    (hempty : after = [] ∧ inner = [] → nodes = [])
    (hcontent : Grammar.Content name.chars nodes
      (after.chars ++ ((writeTags (inner ++ [(endTag name, [])])).chars ++ rest)) rest) :
    ∃ more, (writeTags (tagsAround name as after inner)).chars ++ rest = '<' :: more ∧
      Grammar.Element (.element name.chars (as.map Attribute.chars) nodes) more rest := by
  by_cases hnone : after = [] ∧ inner = []
  · rw [tagsAround, if_pos hnone, hempty hnone]
    refine ⟨(tagText name as true).chars ++ '>' :: rest, ?_,
      .empty (reads_tagText hname has hnodup true rest)⟩
    simp [writeTags]
  · rw [tagsAround, if_neg hnone]
    refine ⟨_, ?_, .content (reads_tagText hname has hnodup false _) hcontent⟩
    simp [writeTags]

theorem Leaf.tags_ne_nil (l : Leaf) : l.tags ≠ [] := by
  rw [Leaf.tags, tagsAround]
  split <;> exact List.cons_ne_nil _ _

theorem Leaf.element_write {l : Leaf} (h : l.Proper) (rest : List Char) :
    ∃ more, (writeTags l.tags).chars ++ rest = '<' :: more ∧ Grammar.Element l.node more rest := by
  refine element_tagsAround h.name h.attributes h.nodup (fun hempty => ?_) ?_
  · rw [escape_eq_nil_iff.mp hempty.1]
    rfl
  · have hfinish := next_escape (reads_endTag h.name rest) l.text
    simpa [writeTags] using Grammar.Content.finish hfinish

/-- Elements one after another are a content, up to the end of the element around them. -/
theorem content_leaves {name : Text} (hname : IsProper name) {ls : List Leaf}
    (h : ∀ l ∈ ls, l.Proper) (rest : List Char) :
    Grammar.Content name.chars (ls.map Leaf.node)
      ((writeTags (ls.flatMap Leaf.tags ++ [(endTag name, [])])).chars ++ rest) rest := by
  induction ls with
  | nil =>
    have hfinish := Grammar.Content.finish (next_escape (reads_endTag hname rest) [])
    simpa [writeTags, escape, Grammar.Node.chars] using hfinish
  | cons l ls ih =>
    rw [List.forall_mem_cons] at h
    rw [List.flatMap_cons, List.append_assoc, writeTags_append, Text.chars_append,
      List.append_assoc]
    obtain ⟨more, hmore, hleaf⟩ := Leaf.element_write h.1
      ((writeTags (ls.flatMap Leaf.tags ++ [(endTag name, [])])).chars ++ rest)
    rw [hmore]
    exact .cons hleaf (ih h.2)

/-- A written element is an element of the grammar. -/
theorem Element.element_write {e : Element} (h : e.Proper) (rest : List Char) :
    ∃ more, e.write.chars ++ rest = '<' :: more ∧ Grammar.Element e.node more rest := by
  rw [Element.write_eq]
  refine element_tagsAround h.name h.attributes h.nodup (fun hempty => ?_) ?_
  · cases hchildren : e.children with
    | nil => rfl
    | cons l ls =>
      rw [hchildren, List.flatMap_cons, List.append_eq_nil_iff] at hempty
      exact absurd hempty.2.1 l.tags_ne_nil
  · exact content_leaves h.name h.children rest

/-! ### Line ends of written elements -/

/-- The text with each line end as a single line feed. -/
def settle (t : Text) : Text := Text.ofChars (lineEnds t.chars)

/-- The element with its text settled. -/
def Leaf.settled (l : Leaf) : Leaf := { l with text := settle l.text }

/-- The element with the texts inside it settled.  The values of attributes stay as they are. -/
def Element.settled (e : Element) : Element := { e with children := e.children.map Leaf.settled }

theorem settle_eq_nil_iff {t : Text} (h : t.LoneFree) : settle t = [] ↔ t = [] := by
  obtain ⟨cs, rfl⟩ := Text.loneFree_iff.mp h
  rw [settle, Text.chars_ofChars, Text.ofChars, List.map_eq_nil_iff, Grammar.lineEnds_eq_nil_iff,
    Text.ofChars, List.map_eq_nil_iff]

/-- No line end stands in the characters. -/
def Unbroken (cs : List Char) : Prop := '\r' ∉ cs ∧ '\n' ∉ cs

/-- What holds no line end is kept. -/
theorem lineEnds_append_of_unbroken {cs : List Char} (h : Unbroken cs) (cs' : List Char) :
    lineEnds (cs ++ cs') = cs ++ lineEnds cs' := by
  induction cs with
  | nil => rfl
  | cons c cs ih =>
    obtain ⟨hreturn, hfeed⟩ := h
    rw [List.mem_cons, not_or] at hreturn hfeed
    rw [List.cons_append, lineEnds, Grammar.lineEndsFrom_cons (Ne.symm hreturn.1) (Ne.symm hfeed.1),
      ih ⟨hreturn.2, hfeed.2⟩, List.cons_append]

/-- It also ends what a carriage return before it began. -/
theorem lineEndsFrom_append_of_unbroken {cs : List Char} (hne : cs ≠ []) (h : Unbroken cs)
    (returned : Bool) (cs' : List Char) :
    Grammar.lineEndsFrom returned (cs ++ cs') = cs ++ lineEnds cs' := by
  cases cs with
  | nil => exact absurd rfl hne
  | cons c cs =>
    obtain ⟨hreturn, hfeed⟩ := h
    rw [List.mem_cons, not_or] at hreturn hfeed
    rw [List.cons_append, Grammar.lineEndsFrom_cons (Ne.symm hreturn.1) (Ne.symm hfeed.1),
      lineEnds_append_of_unbroken ⟨hreturn.2, hfeed.2⟩, List.cons_append]

/-- What is written for a character that ends no line holds no line end. -/
theorem unbroken_escapePoint {c : Char} (hreturn : c ≠ '\r') (hfeed : c ≠ '\n') :
    (escapePoint (.scalar c)).chars ≠ [] ∧ Unbroken (escapePoint (.scalar c)).chars := by
  have hreferences : ∀ r ∈ references,
      '\r' ∉ (referenceText r.1).chars ∧ '\n' ∉ (referenceText r.1).chars := by decide
  rcases escapes_escapePoint (.scalar c) with ⟨hc, -⟩ | ⟨r, hr, -, hc⟩
  · rw [hc]
    exact ⟨List.cons_ne_nil _ _, by simp [Unbroken, Ne.symm hreturn, Ne.symm hfeed]⟩
  · rw [hc]
    exact ⟨List.cons_ne_nil _ _, hreferences r hr⟩

theorem escape_cons (c : CodePoint) (t : Text) : escape (c :: t) = escapePoint c ++ escape t := rfl

/-- Escaping leaves line ends alone. -/
theorem lineEndsFrom_escape (returned : Bool) (t : Text) :
    Grammar.lineEndsFrom returned (escape t).chars
      = (escape (Text.ofChars (Grammar.lineEndsFrom returned t.chars))).chars := by
  induction t generalizing returned with
  | nil => rfl
  | cons c t ih =>
    cases c with
    | lone half => exact ih returned
    | scalar c =>
      by_cases hreturn : c = '\r'
      · subst hreturn
        exact congrArg ('\n' :: ·) (ih true)
      by_cases hfeed : c = '\n'
      · subst hfeed
        cases returned with
        | false => exact congrArg ('\n' :: ·) (ih false)
        | true => exact ih false
      · obtain ⟨hne, hunbroken⟩ := unbroken_escapePoint hreturn hfeed
        have hout : Text.ofChars (c :: lineEnds (Text.chars t))
            = .scalar c :: Text.ofChars (lineEnds (Text.chars t)) := rfl
        rw [escape_cons, Text.chars_append, lineEndsFrom_append_of_unbroken hne hunbroken,
          Text.chars_cons, Grammar.lineEndsFrom_cons hreturn hfeed, hout, escape_cons,
          Text.chars_append]
        exact congrArg ((escapePoint (.scalar c)).chars ++ ·) (ih false)

theorem loneFree_escape {t : Text} (h : t.LoneFree) : (escape t).LoneFree := by
  intro half hmem
  obtain ⟨c, hc, hmem⟩ := List.mem_flatMap.mp hmem
  rcases escapes_escapePoint c with ⟨hsame, -⟩ | ⟨r, -, -, hreference⟩
  · rw [hsame, List.mem_singleton] at hmem
    exact h half (hmem ▸ hc)
  · have hfree : (referenceText r.1).LoneFree := by
      simp [referenceText, Text.LoneFree, Text.ofString]
    rw [hreference] at hmem
    exact hfree half hmem

/-- An escaped text is settled by settling the text. -/
theorem settle_escape (t : Text) : settle (escape t) = escape (settle t) := by
  unfold settle lineEnds
  rw [lineEndsFrom_escape]
  exact Text.ofChars_chars (loneFree_escape (Text.loneFree_ofChars _))

/-- Tags hold no line ends, so only the texts behind them are settled. -/
theorem lineEnds_writeTags {ts : List (Text × Text)} (h : ∀ t ∈ ts, Unbroken t.1.chars) :
    lineEnds (writeTags ts).chars = (writeTags (ts.map fun t => (t.1, settle t.2))).chars := by
  have hcons : ∀ (t : Text × Text) (us : List (Text × Text)), (writeTags (t :: us)).chars
      = '<' :: (t.1.chars ++ ['>']) ++ (t.2.chars ++ (writeTags us).chars) := by
    intro t us
    simp [writeTags]
  induction ts with
  | nil => rfl
  | cons t ts ih =>
    rw [List.forall_mem_cons] at h
    -- What follows a text begins with an angle bracket.
    have hhead : (writeTags ts).chars.head? ≠ some '\n' := by
      cases ts with
      | nil =>
        intro hfeed
        cases hfeed
      | cons u us =>
        rw [hcons]
        exact fun hfeed => absurd (Option.some.inj hfeed) (by decide)
    have htag : Unbroken ('<' :: (t.1.chars ++ ['>'])) := by
      obtain ⟨hreturn, hfeed⟩ := h.1
      simp [Unbroken, hreturn, hfeed]
    rw [List.map_cons, hcons, hcons, lineEnds_append_of_unbroken htag,
      Grammar.lineEnds_append hhead, ih h.2, settle, Text.chars_ofChars]

theorem IsProper.notMem {name : Text} (h : IsProper name) {c : Char}
    (hc : Grammar.isNamePart c = false) : CodePoint.scalar c ∉ name := by
  obtain ⟨cs, rfl, hname⟩ := h
  intro hmem
  obtain ⟨d, hd, hsame⟩ := List.mem_map.mp hmem
  cases hsame
  rw [Grammar.isNamePart_of_mem hname c hd] at hc
  cases hc

/-- No line end is written inside a tag. -/
theorem unbroken_tagsAround {name : Text} (hname : IsProper name) {as : List Attribute}
    (h : ∀ a ∈ as, IsProper a.name) {after : Text} {inner : List (Text × Text)}
    (hinner : ∀ t ∈ inner, Unbroken t.1.chars) :
    ∀ t ∈ tagsAround name as after inner, Unbroken t.1.chars := by
  have htag : ∀ closed, Unbroken (tagText name as closed).chars := by
    intro closed
    unfold Unbroken
    rw [Text.mem_chars_iff, Text.mem_chars_iff]
    exact ⟨notMem_tagText (by decide) (hname.notMem (by decide))
        (fun a ha => (h a ha).notMem (by decide)) closed,
      notMem_tagText (by decide) (hname.notMem (by decide))
        (fun a ha => (h a ha).notMem (by decide)) closed⟩
  have hend : Unbroken (endTag name).chars := by
    unfold Unbroken endTag
    rw [Text.mem_chars_iff, Text.mem_chars_iff, List.mem_append, List.mem_append]
    exact ⟨not_or.mpr ⟨by decide, hname.notMem (by decide)⟩,
      not_or.mpr ⟨by decide, hname.notMem (by decide)⟩⟩
  intro t ht
  rcases mem_tagsAround ht with rfl | rfl | ht | rfl
  · exact htag true
  · exact htag false
  · exact hinner t ht
  · exact hend

/-- The tag with the text behind it settled. -/
def settleTag (t : Text × Text) : Text × Text := (t.1, settle t.2)

theorem tagsAround_settle {name : Text} {as : List Attribute} {after : Text} (h : after.LoneFree)
    (inner : List (Text × Text)) :
    tagsAround name as (settle after) (inner.map settleTag)
      = (tagsAround name as after inner).map settleTag := by
  have hempty : settle after = [] ∧ inner.map settleTag = [] ↔ after = [] ∧ inner = [] := by
    rw [settle_eq_nil_iff h, List.map_eq_nil_iff]
  rw [tagsAround, tagsAround]
  by_cases hnone : after = [] ∧ inner = []
  · rw [if_pos (hempty.mpr hnone), if_pos hnone]
    rfl
  · rw [if_neg (mt hempty.mp hnone), if_neg hnone]
    rw [List.map_cons, List.map_append]
    rfl

theorem Leaf.tags_settled {l : Leaf} (h : l.text.LoneFree) :
    l.settled.tags = l.tags.map settleTag := by
  rw [Leaf.tags, Leaf.tags, ← tagsAround_settle (loneFree_escape h), settle_escape]
  rfl

/-- The line ends of a written element are those of the texts inside it. -/
theorem Element.lineEnds_write {e : Element} (h : e.Proper)
    (hfree : ∀ l ∈ e.children, l.text.LoneFree) :
    lineEnds e.write.chars = e.settled.write.chars := by
  have hunbroken : ∀ t ∈ e.tags, Unbroken t.1.chars := by
    refine unbroken_tagsAround h.name h.attributes fun t ht => ?_
    obtain ⟨l, hl, ht⟩ := List.mem_flatMap.mp ht
    have hproper := h.children l hl
    exact unbroken_tagsAround hproper.name hproper.attributes
      (fun _ hmem => absurd hmem List.not_mem_nil) t ht
  have hchildren : ∀ ls : List Leaf, (∀ l ∈ ls, l.text.LoneFree) →
      (ls.map Leaf.settled).flatMap Leaf.tags = (ls.flatMap Leaf.tags).map settleTag := by
    intro ls hls
    induction ls with
    | nil => rfl
    | cons l ls ih =>
      rw [List.forall_mem_cons] at hls
      rw [List.map_cons, List.flatMap_cons, List.flatMap_cons, List.map_append,
        Leaf.tags_settled hls.1, ih hls.2]
  have htags : e.settled.tags = e.tags.map settleTag := by
    have hnil : Text.LoneFree [] := nofun
    show tagsAround e.name e.attributes (settle [])
      ((e.children.map Leaf.settled).flatMap Leaf.tags) = _
    rw [hchildren e.children hfree]
    exact tagsAround_settle hnil _
  rw [Element.write_eq, Element.write_eq, htags]
  exact lineEnds_writeTags hunbroken

/-! ### Code points of written elements -/

/-- A document may hold the code point. -/
def isLegalPoint : CodePoint → Bool
  | .scalar c => isChar c
  | .lone _ => false

/-- A document may hold the text. -/
def IsLegal (t : Text) : Prop := ∀ c ∈ t, isLegalPoint c

instance (t : Text) : Decidable (IsLegal t) := List.decidableBAll (fun c => isLegalPoint c) t

theorem isLegal_ofChars_iff {cs : List Char} : IsLegal (Text.ofChars cs) ↔ ∀ c ∈ cs, isChar c :=
  List.forall_mem_map

/-- A document holds no lone surrogates. -/
theorem IsLegal.loneFree {t : Text} (h : IsLegal t) : t.LoneFree := by
  intro half hmem
  cases h _ hmem

theorem IsProper.isLegal {name : Text} (h : IsProper name) : IsLegal name := by
  obtain ⟨cs, rfl, hname⟩ := h
  exact isLegal_ofChars_iff.mpr fun c hc =>
    Grammar.isChar_of_isNamePart (Grammar.isNamePart_of_mem hname c hc)

/-- The values and the text of an element have a property. -/
structure Leaf.Texts (P : Text → Prop) (l : Leaf) : Prop where
  attributes : ∀ a ∈ l.attributes, P a.value
  text : P l.text

/-- The values of an element, and the values and texts inside it, have a property. -/
structure Element.Texts (P : Text → Prop) (e : Element) : Prop where
  attributes : ∀ a ∈ e.attributes, P a.value
  children : ∀ l ∈ e.children, l.Texts P

section Points

-- What every legal code point has is not lost by the markup around a text, nor by escaping it.
variable {p : CodePoint → Prop} (hp : ∀ c, isLegalPoint c → p c)
include hp

theorem forall_mem_flatMap_iff (hf : Escapes kept f) {t : Text} :
    (∀ c ∈ t.flatMap f, p c) ↔ ∀ c ∈ t, p c := by
  have hreferences : ∀ r ∈ references, IsLegal (referenceText r.1) ∧ isChar r.2 := by decide
  have hpoint : ∀ c, (∀ d ∈ f c, p d) ↔ p c := by
    intro c
    rcases hf c with ⟨hc, -⟩ | ⟨r, hr, rfl, hc⟩
    · rw [hc]
      exact List.forall_mem_singleton
    · rw [hc]
      obtain ⟨htext, hchar⟩ := hreferences r hr
      exact ⟨fun _ => hp _ hchar, fun _ d hd => hp d (htext d hd)⟩
  induction t with
  | nil => rfl
  | cons c t ih =>
    rw [List.flatMap_cons, List.forall_mem_append, List.forall_mem_cons]
    exact and_congr (hpoint c) ih

theorem forall_mem_writeTags_iff {ts : List (Text × Text)} :
    (∀ c ∈ writeTags ts, p c) ↔ ∀ t ∈ ts, (∀ c ∈ t.1, p c) ∧ ∀ c ∈ t.2, p c := by
  induction ts with
  | nil => exact ⟨fun _ => nofun, fun _ => nofun⟩
  | cons t ts ih =>
    have hmarks : p (.scalar '<') ∧ p (.scalar '>') := ⟨hp _ (by decide), hp _ (by decide)⟩
    have hcons : writeTags (t :: ts)
        = .scalar '<' :: (t.1 ++ .scalar '>' :: t.2) ++ writeTags ts := by
      simp [writeTags]
    rw [hcons, List.forall_mem_append, List.forall_mem_cons, List.forall_mem_append,
      List.forall_mem_cons, List.forall_mem_cons, ih, and_iff_right hmarks.1,
      and_iff_right hmarks.2]

theorem forall_mem_tagText_iff {name : Text} (hname : IsProper name) {as : List Attribute}
    (h : ∀ a ∈ as, IsProper a.name) (closed : Bool) :
    (∀ c ∈ tagText name as closed, p c) ↔ ∀ a ∈ as, ∀ c ∈ a.value, p c := by
  have hlegal : ∀ {t : Text}, IsLegal t → ∀ c ∈ t, p c := fun ht c hc => hp c (ht c hc)
  have hfinal : IsLegal (if closed then (" /" : Text) else []) := by cases closed <;> decide
  rw [tagText, List.forall_mem_append, List.forall_mem_append, and_iff_right (hlegal hname.isLegal),
    and_iff_left (hlegal hfinal)]
  induction as with
  | nil => exact iff_of_true (List.forall_mem_nil p) (List.forall_mem_nil _)
  | cons a as ih =>
    rw [List.forall_mem_cons] at h
    have hmarks : p (.scalar ' ') ∧ p (.scalar '=') ∧ p (.scalar '"') :=
      ⟨hp _ (by decide), hp _ (by decide), hp _ (by decide)⟩
    have hkey : ∀ c ∈ attributeKey a.name, p c :=
      List.forall_mem_cons.mpr ⟨hmarks.1, List.forall_mem_append.mpr
        ⟨hlegal h.1.isLegal, List.forall_mem_singleton.mpr hmarks.2.1⟩⟩
    have hwrite : (∀ c ∈ a.write, p c) ↔ ∀ c ∈ a.value, p c := by
      rw [Attribute.write_eq, List.forall_mem_append, and_iff_right hkey, List.forall_mem_cons,
        and_iff_right hmarks.2.2, List.forall_mem_append, List.forall_mem_singleton,
        and_iff_left hmarks.2.2]
      exact forall_mem_flatMap_iff hp escapes_escapeQuotedPoint
    rw [List.flatMap_cons, List.forall_mem_append, List.forall_mem_cons]
    exact and_congr hwrite (ih h.2)

/-- Around a content nothing is written but marks, names and values. -/
theorem forall_mem_tagsAround_iff {name : Text} (hname : IsProper name) {as : List Attribute}
    (h : ∀ a ∈ as, IsProper a.name) (after : Text) (inner : List (Text × Text)) :
    (∀ c ∈ writeTags (tagsAround name as after inner), p c) ↔
      (∀ a ∈ as, ∀ c ∈ a.value, p c) ∧ (∀ c ∈ after, p c) ∧ ∀ c ∈ writeTags inner, p c := by
  have hnil : ∀ c ∈ ([] : Text), p c := List.forall_mem_nil p
  have hslash : p (.scalar '/') := hp _ (by decide)
  have hend : ∀ c ∈ endTag name, p c :=
    List.forall_mem_cons.mpr ⟨hslash, fun c hc => hp c (hname.isLegal c hc)⟩
  rw [forall_mem_writeTags_iff hp, forall_mem_writeTags_iff hp, tagsAround]
  by_cases hnone : after = [] ∧ inner = []
  · rw [if_pos hnone, hnone.1, hnone.2, List.forall_mem_singleton,
      forall_mem_tagText_iff hp hname h]
    exact and_congr_right fun _ => ⟨fun _ => ⟨hnil, List.forall_mem_nil _⟩, fun _ => hnil⟩
  · rw [if_neg hnone, List.forall_mem_cons, List.forall_mem_append, List.forall_mem_singleton,
      forall_mem_tagText_iff hp hname h, and_assoc]
    exact and_congr_right fun _ => and_congr_right fun _ => and_iff_left ⟨hend, hnil⟩

theorem Leaf.forall_mem_tags_iff {l : Leaf} (h : l.Proper) :
    (∀ c ∈ writeTags l.tags, p c) ↔ l.Texts fun t => ∀ c ∈ t, p c := by
  have hnil : ∀ c ∈ writeTags [], p c := nofun
  rw [Leaf.tags, forall_mem_tagsAround_iff hp h.name h.attributes, and_iff_left hnil, escape,
    forall_mem_flatMap_iff hp escapes_escapePoint]
  exact ⟨fun hl => ⟨hl.1, hl.2⟩, fun hl => ⟨hl.1, hl.2⟩⟩

/-- All that is written of an element has the property exactly when all texts in it do. -/
theorem Element.forall_mem_write_iff {e : Element} (h : e.Proper) :
    (∀ c ∈ e.write, p c) ↔ e.Texts fun t => ∀ c ∈ t, p c := by
  have hnil : ∀ c ∈ ([] : Text), p c := nofun
  have hchildren : ∀ ls : List Leaf, (∀ l ∈ ls, l.Proper) →
      ((∀ c ∈ writeTags (ls.flatMap Leaf.tags), p c) ↔
        ∀ l ∈ ls, l.Texts fun t => ∀ c ∈ t, p c) := by
    intro ls hls
    induction ls with
    | nil => exact ⟨fun _ => nofun, fun _ => nofun⟩
    | cons l ls ih =>
      rw [List.forall_mem_cons] at hls ⊢
      rw [List.flatMap_cons, writeTags_append, List.forall_mem_append,
        Leaf.forall_mem_tags_iff hp hls.1, ih hls.2]
  rw [Element.write_eq, Element.tags, forall_mem_tagsAround_iff hp h.name h.attributes,
    hchildren e.children h.children, and_iff_right hnil]
  exact ⟨fun he => ⟨he.1, he.2⟩, fun he => ⟨he.1, he.2⟩⟩

end Points

/-! ### Documents -/

theorem Element.Proper.settled {e : Element} (h : e.Proper) : e.settled.Proper := by
  refine ⟨h.name, h.attributes, h.nodup, fun l hl => ?_⟩
  obtain ⟨m, hm, rfl⟩ := List.mem_map.mp hl
  exact ⟨(h.children m hm).name, (h.children m hm).attributes, (h.children m hm).nodup⟩

/-- A document may hold what is written exactly when it may hold all texts in it. -/
theorem Element.isLegal_write_iff {e : Element} (h : e.Proper) :
    IsLegal e.write ↔ e.Texts IsLegal :=
  Element.forall_mem_write_iff (fun _ hc => hc) h

/-- What is written is free of lone surrogates exactly when all texts in it are. -/
theorem Element.loneFree_write_iff {e : Element} (h : e.Proper) :
    e.write.LoneFree ↔ e.Texts Text.LoneFree := by
  have hiff : Text.LoneFree = fun t => ∀ c ∈ t, ∀ half, c ≠ CodePoint.lone half := by
    funext t
    exact propext ⟨fun ht c hc half hlone => ht half (hlone ▸ hc),
      fun ht half hmem => ht _ hmem half rfl⟩
  have hp : ∀ c, isLegalPoint c → ∀ half, c ≠ CodePoint.lone half := by
    rintro _ hc half rfl
    cases hc
  rw [hiff]
  exact Element.forall_mem_write_iff hp h

/-- A written element is the body of a document, for its settled form. -/
theorem Element.body_write {e : Element} (h : e.Proper) (hfree : e.write.LoneFree) :
    Grammar.Body e.settled.node (lineEnds e.write.chars) := by
  have htexts := (Element.loneFree_write_iff h).mp hfree
  obtain ⟨more, hmore, hroot⟩ := Element.element_write h.settled []
  rw [List.append_nil] at hmore
  rw [Element.lineEnds_write h fun l hl => (htexts.children l hl).text, hmore]
  exact .root rfl hroot (.nil rfl)

end CloudEnvelope.Xml
