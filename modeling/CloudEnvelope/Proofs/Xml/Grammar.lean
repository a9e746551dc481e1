import CloudEnvelope.Text.Utf8
import Mathlib.Data.List.Infix
import Mathlib.Data.List.TakeDrop

/-!
# The grammar of XML documents

`Xml.Grammar.Document` says which characters are a well-formed document of XML 1.0 without a
document type declaration, and which tree of elements and characters it denotes.  Names, references
and attributes are read by functions, each of which takes what belongs to its token off the front;
how tags nest is a relation (`Xml.Grammar.Content`).  Comments and processing instructions are part
of the grammar and leave nothing in the tree.

`Xml.Grammar.Document.unique`: a document denotes one tree.  So what `Xml.Grammar.Denotes` says of
bytes in UTF-8 is what every conforming reader learns from them.  Such a reader sees each line end
as a single line feed, whether it was written as one, as a carriage return, or as both.
-/

namespace CloudEnvelope.Xml.Grammar

/-! ### Characters -/

/-- The character is in one of the ranges, which are given by their ends. -/
def isIn (ranges : List (Nat × Nat)) (c : Char) : Bool :=
  ranges.any fun r => r.1 ≤ c.toNat && c.toNat ≤ r.2

/-- The characters that a document may hold. -/
def characters : List (Nat × Nat) :=
  [(0x9, 0xA), (0xD, 0xD), (0x20, 0xD7FF), (0xE000, 0xFFFD), (0x10000, 0x10FFFF)]

/-- The characters that a name may begin with. -/
def nameStarts : List (Nat × Nat) :=
  [(0x3A, 0x3A), (0x41, 0x5A), (0x5F, 0x5F), (0x61, 0x7A), (0xC0, 0xD6), (0xD8, 0xF6),
    (0xF8, 0x2FF), (0x370, 0x37D), (0x37F, 0x1FFF), (0x200C, 0x200D), (0x2070, 0x218F),
    (0x2C00, 0x2FEF), (0x3001, 0xD7FF), (0xF900, 0xFDCF), (0xFDF0, 0xFFFD), (0x10000, 0xEFFFF)]

/-- The characters that a name may hold behind its first one. -/
def nameParts : List (Nat × Nat) :=
  nameStarts ++
    [(0x2D, 0x2E), (0x30, 0x39), (0xB7, 0xB7), (0x300, 0x36F), (0x203F, 0x2040)]

def isChar (c : Char) : Bool := isIn characters c

def isNameStart (c : Char) : Bool := isIn nameStarts c

def isNamePart (c : Char) : Bool := isIn nameParts c

/-- White space. -/
def isBlank (c : Char) : Bool := c ∈ [' ', '\t', '\n', '\r']

/-- The text from its first character on that is no white space. -/
def skipBlanks (cs : List Char) : List Char := cs.dropWhile isBlank

/-- Each line end as a single line feed, where the character before may have been a carriage
return. -/
def lineEndsFrom : Bool → List Char → List Char
  | _, [] => []
  | returned, c :: cs =>
    if c = '\r' then '\n' :: lineEndsFrom true cs
    else if returned && c == '\n' then lineEndsFrom false cs
    else c :: lineEndsFrom false cs

/-- Each line end as a single line feed. -/
def lineEnds (cs : List Char) : List Char := lineEndsFrom false cs

/-! ### Tokens -/

/-- What stands before the first occurrence of a mark, and what stands behind it. -/
def upTo? (mark : List Char) : List Char → Option (List Char × List Char)
  | [] => none
  | c :: cs =>
    if mark.isPrefixOf (c :: cs) then some ([], (c :: cs).drop mark.length)
    else (upTo? mark cs).map fun found => (c :: found.1, found.2)

def isName : List Char → Bool
  | [] => false
  | c :: cs => isNameStart c && cs.all isNamePart

/-- The name at the front of a text, as long as it can be, and what follows it. -/
def name? (cs : List Char) : Option (List Char × List Char) :=
  if isName (cs.takeWhile isNamePart) then
    some (cs.takeWhile isNamePart, cs.dropWhile isNamePart)
  else none

/-- A name without colons. -/
def isNCName (name : Text) : Bool :=
  match name.scalars? with
  | some cs => isName cs && !cs.contains ':'
  | none => false

/-! ### References -/

/-- The entities that need no declaration. -/
def entities : List (String × Char) :=
  [("amp", '&'), ("lt", '<'), ("gt", '>'), ("apos", '\''), ("quot", '"')]

/-- The number that a digit stands for in a base up to sixteen. -/
def digit? (base : Nat) (c : Char) : Option Nat :=
  ("0123456789abcdef".toList.take base).idxOf? c.toLower

/-- The number that digits stand for, of which there is at least one. -/
def number? (base : Nat) (digits : List Char) : Option Nat :=
  if digits = [] then none
  else digits.foldlM (fun n c => (digit? base c).map (n * base + ·)) 0

/-- The character of a number, if a document may hold it. -/
def character? (n : Nat) : Option Char :=
  if n.isValidChar ∧ isChar (Char.ofNat n) then some (Char.ofNat n) else none

/-- The character that is denoted by what stands between an ampersand and a semicolon. -/
def denoted? : List Char → Option Char
  | '#' :: 'x' :: digits => (number? 16 digits).bind character?
  | '#' :: digits => (number? 10 digits).bind character?
  | name => (entities.find? fun e => e.1.toList == name).map (·.2)

/-- Puts characters for references: in the middle of a reference, with what has been read of it, or
outside of any.  What is no reference stands for the character that `literal` says. -/
def expandFrom? (literal : Char → Char) : Option (List Char) → List Char → Option (List Char)
  | none, [] => some []
  | some _, [] => none
  | none, c :: cs =>
    if c = '&' then expandFrom? literal (some []) cs
    else (expandFrom? literal none cs).map (literal c :: ·)
  | some name, c :: cs =>
    if c = ';' then
      match denoted? name with
      | some d => (expandFrom? literal none cs).map (d :: ·)
      | none => none
    else expandFrom? literal (some (name ++ [c])) cs

/-- The characters between tags. -/
def charData? (raw : List Char) : Option (List Char) :=
  if "]]>".toList <:+: raw then none else expandFrom? id none raw

/-- White space that is written as such in a value stands for a space. -/
def valueLiteral (c : Char) : Char := if isBlank c then ' ' else c

/-- The value of an attribute, from what stands between its quotation marks. -/
def value? (raw : List Char) : Option (List Char) :=
  if '<' ∈ raw then none else expandFrom? valueLiteral none raw

/-! ### Tags -/

/-- A name with a value or with what the value is read from. -/
abbrev Attribute := List Char × List Char

/-- The attribute at the front of a text, its value as it is written, and what follows it. -/
def attribute? (cs : List Char) : Option (Attribute × List Char) :=
  if cs.head?.any isBlank then do
    let (name, more) ← name? (skipBlanks cs)
    let '=' :: more := skipBlanks more | none
    let quote :: more := skipBlanks more | none
    if quote = '"' ∨ quote = '\'' then
      let (raw, rest) ← upTo? [quote] more
      some ((name, raw), rest)
    else none
  else none

/-- The attributes at the front of a text, as many as there are. -/
inductive Attributes : List Attribute → List Char → List Char → Prop
  | nil {cs : List Char} (h : attribute? cs = none) : Attributes [] cs cs
  | cons {a : Attribute} {as : List Attribute} {cs more rest : List Char}
      (h : attribute? cs = some (a, more)) (hrest : Attributes as more rest) :
      Attributes (a :: as) cs rest

/-- The end of a tag that begins an element, or is the whole of one, and what follows it. -/
def tagEnd? (cs : List Char) : Option (Bool × List Char) :=
  match skipBlanks cs with
  | '>' :: rest => some (false, rest)
  | '/' :: '>' :: rest => some (true, rest)
  | _ => none

/-- What begins with a left angle bracket inside a document. -/
inductive Markup where
  | start (name : List Char) (attributes : List Attribute) (closed : Bool)
  | finish (name : List Char)
  | text (cs : List Char)
  | aside

/-- An instruction has a target, which is a name other than `xml`. -/
def isInstruction (body : List Char) : Bool :=
  match name? body with
  | some (target, more) =>
    target.map Char.toLower != "xml".toList && (more.isEmpty || more.head?.any isBlank)
  | none => false

/-- The markup that is told by a mark behind its angle bracket, which has been taken from the text,
and what follows it: the end of an element, a comment, characters as they are, an instruction. -/
def marked? : List Char → Option (Markup × List Char)
  | '/' :: cs => do
    let (name, more) ← name? cs
    let '>' :: rest := skipBlanks more | none
    some (.finish name, rest)
  | '!' :: '-' :: '-' :: cs => do
    let (_, '>' :: rest) ← upTo? "--".toList cs | none
    some (.aside, rest)
  | '!' :: '[' :: 'C' :: 'D' :: 'A' :: 'T' :: 'A' :: '[' :: cs => do
    let (body, rest) ← upTo? "]]>".toList cs
    some (.text body, rest)
  | '?' :: cs => do
    let (body, rest) ← upTo? "?>".toList cs
    if isInstruction body then some (.aside, rest) else none
  | _ => none

/-- The markup at the front of a text, from which its angle bracket has been taken, and what
follows it. -/
inductive Markup.Reads : Markup → List Char → List Char → Prop
  | start {name : List Char} {raws as : List Attribute} {closed : Bool}
      {cs more after rest : List Char} (hname : name? cs = some (name, more))
      (hraws : Attributes raws more after) (hend : tagEnd? after = some (closed, rest))
      (has : raws.mapM (fun raw => (value? raw.2).map (raw.1, ·)) = some as)
      (hnames : (as.map (·.1)).Nodup) : Reads (.start name as closed) cs rest
  | marked {m : Markup} {cs rest : List Char} (h : marked? cs = some (m, rest)) : Reads m cs rest

/-! ### Elements -/

/-- What a document denotes. -/
inductive Node where
  | char (c : Char)
  | element (name : List Char) (attributes : List Attribute) (content : List Node)

/-- The nodes of characters. -/
def Node.chars (cs : List Char) : List Node := cs.map .char

/-- What markup stands for that nothing else belongs to. -/
def Markup.nodes? : Markup → Option (List Node)
  | start name as true => some [.element name as []]
  | start _ _ false => none
  | finish _ => none
  | text cs => some (Node.chars cs)
  | aside => some []

/-- The characters at the front of a text and the markup behind them. -/
inductive Next : List Char → Markup → List Char → List Char → Prop
  | mk {raw t cs more rest : List Char} {m : Markup} (hraw : upTo? ['<'] cs = some (raw, more))
      (ht : charData? raw = some t) (hm : m.Reads more rest) : Next t m cs rest

/-- The content of an element at the front of a text, with the tag that ends the element. -/
inductive Content : List Char → List Node → List Char → List Char → Prop
  | finish {t name cs rest : List Char} (h : Next t (.finish name) cs rest) :
      Content name (Node.chars t) cs rest
  | markup {t name cs more rest : List Char} {m : Markup} {ns nodes : List Node}
      (h : Next t m cs more) (hm : m.nodes? = some ns) (hrest : Content name nodes more rest) :
      Content name (Node.chars t ++ (ns ++ nodes)) cs rest
  | element {t name inner cs more after rest : List Char} {as : List Attribute}
      {content nodes : List Node} (h : Next t (.start inner as false) cs more)
      (hcontent : Content inner content more after) (hrest : Content name nodes after rest) :
      Content name (Node.chars t ++ .element inner as content :: nodes) cs rest

/-- The element at the front of a text, from which its first angle bracket has been taken. -/
inductive Element : Node → List Char → List Char → Prop
  | empty {name cs rest : List Char} {as : List Attribute}
      (h : Markup.Reads (.start name as true) cs rest) : Element (.element name as []) cs rest
  | content {name cs more rest : List Char} {as : List Attribute} {content : List Node}
      (h : Markup.Reads (.start name as false) cs more)
      (hcontent : Content name content more rest) :
      Element (.element name as content) cs rest

/-! ### Documents -/

/-- Nothing but comments, instructions and white space. -/
inductive Asides : List Char → Prop
  | nil {cs : List Char} (h : skipBlanks cs = []) : Asides cs
  | aside {cs more rest : List Char} (h : skipBlanks cs = '<' :: more)
      (haside : Markup.aside.Reads more rest) (hrest : Asides rest) : Asides cs

/-- A document behind its declaration. -/
inductive Body : Node → List Char → Prop
  | root {root : Node} {cs more rest : List Char} (h : skipBlanks cs = '<' :: more)
      (hroot : Element root more rest) (hrest : Asides rest) : Body root cs
  | aside {root : Node} {cs more rest : List Char} (h : skipBlanks cs = '<' :: more)
      (haside : Markup.aside.Reads more rest) (hrest : Body root rest) : Body root cs

/-- Takes an attribute off the front if its name and its value are allowed there. -/
def dropAttribute (name : String) (allowed : List Char → Bool) : List Attribute → List Attribute
  | [] => []
  | a :: as => if a.1 == name.toList && allowed a.2 then as else a :: as

/-- The attributes that a declaration in UTF-8 may have: a version 1, the encoding unless it is left
out, and likewise whether the document stands alone. -/
def isDeclaration (as : List Attribute) : Bool :=
  let isVersion (value : List Char) : Bool :=
    value.take 2 == "1.".toList && value.drop 2 != [] && (value.drop 2).all Char.isDigit
  let isUtf8 (value : List Char) : Bool := value.map Char.toLower == "utf-8".toList
  let isAnswer (value : List Char) : Bool := value ∈ ["yes".toList, "no".toList]
  match as with
  | [] => false
  | version :: rest =>
    version.1 == "version".toList && isVersion version.2 &&
      (dropAttribute "standalone" isAnswer (dropAttribute "encoding" isUtf8 rest)).isEmpty

/-- The document and what is left of it behind its declaration, if it has one. -/
inductive Declared : List Char → List Char → Prop
  | declaration {cs more after rest : List Char} {as : List Attribute}
      (hcs : cs = "<?xml".toList ++ more) (has : Attributes as more after) (h : isDeclaration as)
      (hend : skipBlanks after = '?' :: '>' :: rest) : Declared cs rest
  | bare {cs : List Char} (h : ∀ more, cs = "<?xml".toList ++ more → attribute? more = none) :
      Declared cs cs

/-- The characters are a well-formed document with this root. -/
structure Document (root : Node) (cs : List Char) : Prop where
  legal : ∀ c ∈ cs, isChar c
  body : ∃ rest, Declared cs rest ∧ Body root rest

/-- The bytes are a well-formed document in UTF-8 with this root. -/
def Denotes (raw : Bytes) (root : Node) : Prop :=
  ∃ cs, Utf8.decode? raw = some cs ∧ Document root (lineEnds cs)

/-! ### What a document denotes -/

variable {cs rest rest' : List Char}

theorem Attributes.unique {as as' : List Attribute} (h : Attributes as cs rest)
    (h' : Attributes as' cs rest') : as = as' ∧ rest = rest' := by
  induction h generalizing as' with
  | nil h =>
    cases h' with
    | nil => exact ⟨rfl, rfl⟩
    | cons h' =>
      rw [h] at h'
      cases h'
  | cons h hrest ih =>
    cases h' with
    | nil h' =>
      rw [h'] at h
      cases h
    | cons h' hrest' =>
      rw [h, Option.some.injEq, Prod.mk.injEq] at h'
      obtain ⟨rfl, rfl⟩ := h'
      obtain ⟨rfl, rfl⟩ := ih hrest'
      exact ⟨rfl, rfl⟩

/-- A name begins with a character that names begin with. -/
theorem isNameStart_of_name? {c : Char} {name : List Char}
    (h : name? (c :: cs) = some (name, rest)) : isNameStart c := by
  rw [name?] at h
  split at h
  · rename_i hname
    by_cases hc : isNamePart c
    · rw [List.takeWhile_cons_of_pos hc, isName, Bool.and_eq_true] at hname
      exact hname.1
    · rw [List.takeWhile_cons_of_neg hc] at hname
      cases hname
  · cases h

/-- What begins with a mark begins with no name. -/
theorem name?_of_marked? {found : Markup × List Char} (h : marked? cs = some found) :
    name? cs = none := by
  have hmark : ∀ c ∈ ['/', '!', '?'], ∀ more, name? (c :: more) = none := by
    intro c hc more
    have hstart : isNameStart c = false := by
      simp only [List.mem_cons, List.not_mem_nil, or_false] at hc
      rcases hc with rfl | rfl | rfl <;> decide
    refine Option.eq_none_iff_forall_ne_some.mpr fun found hfound => ?_
    rw [isNameStart_of_name? hfound] at hstart
    cases hstart
  unfold marked? at h
  split at h
  case h_5 => cases h
  all_goals exact hmark _ (by decide) _

theorem Markup.Reads.unique {m m' : Markup} (h : m.Reads cs rest) (h' : m'.Reads cs rest') :
    m = m' ∧ rest = rest' := by
  cases h with
  | start hname hraws hend has =>
    cases h' with
    | start hname' hraws' hend' has' =>
      rw [hname, Option.some.injEq, Prod.mk.injEq] at hname'
      obtain ⟨rfl, rfl⟩ := hname'
      obtain ⟨rfl, rfl⟩ := hraws.unique hraws'
      rw [hend, Option.some.injEq, Prod.mk.injEq] at hend'
      obtain ⟨rfl, rfl⟩ := hend'
      rw [has, Option.some.injEq] at has'
      exact ⟨by rw [has'], rfl⟩
    | marked h' =>
      rw [name?_of_marked? h'] at hname
      cases hname
  | marked h =>
    cases h' with
    | start hname' =>
      rw [name?_of_marked? h] at hname'
      cases hname'
    | marked h' =>
      rw [h, Option.some.injEq, Prod.mk.injEq] at h'
      exact h'

theorem Next.unique {t t' : List Char} {m m' : Markup} (h : Next t m cs rest)
    (h' : Next t' m' cs rest') : t = t' ∧ m = m' ∧ rest = rest' := by
  cases h with
  | mk hraw ht hm =>
    cases h' with
    | mk hraw' ht' hm' =>
      rw [hraw, Option.some.injEq, Prod.mk.injEq] at hraw'
      obtain ⟨rfl, rfl⟩ := hraw'
      rw [ht, Option.some.injEq] at ht'
      exact ⟨ht', hm.unique hm'⟩

/-- The markup behind the first characters settles which case of `Content` applies. -/
theorem Content.unique {name : List Char} {nodes nodes' : List Node}
    (h : Content name nodes cs rest) (h' : Content name nodes' cs rest') :
    nodes = nodes' ∧ rest = rest' := by
  induction h generalizing nodes' rest' with
  | finish h =>
    cases h' with
    | finish h' =>
      obtain ⟨rfl, -, rfl⟩ := h.unique h'
      exact ⟨rfl, rfl⟩
    | markup h' hm' =>
      obtain ⟨-, rfl, -⟩ := h.unique h'
      cases hm'
    | element h' => cases (h.unique h').2.1
  | markup h hm hrest ih =>
    cases h' with
    | finish h' =>
      obtain ⟨-, rfl, -⟩ := h.unique h'
      cases hm
    | markup h' hm' hrest' =>
      obtain ⟨rfl, rfl, rfl⟩ := h.unique h'
      obtain ⟨rfl, rfl⟩ := ih hrest'
      exact ⟨by rw [Option.some.inj (hm.symm.trans hm')], rfl⟩
    | element h' =>
      obtain ⟨-, rfl, -⟩ := h.unique h'
      cases hm
  | element h hcontent hrest ihcontent ih =>
    cases h' with
    | finish h' => cases (h.unique h').2.1
    | markup h' hm' =>
      obtain ⟨-, rfl, -⟩ := h.unique h'
      cases hm'
    | element h' hcontent' hrest' =>
      obtain ⟨rfl, ⟨⟩, rfl⟩ := h.unique h'
      obtain ⟨rfl, rfl⟩ := ihcontent hcontent'
      obtain ⟨rfl, rfl⟩ := ih hrest'
      exact ⟨rfl, rfl⟩

theorem Element.unique {node node' : Node} (h : Element node cs rest)
    (h' : Element node' cs rest') : node = node' ∧ rest = rest' := by
  cases h with
  | empty h =>
    cases h' with
    | empty h' =>
      obtain ⟨⟨⟩, rfl⟩ := h.unique h'
      exact ⟨rfl, rfl⟩
    | content h' => cases (h.unique h').1
  | content h hcontent =>
    cases h' with
    | empty h' => cases (h.unique h').1
    | content h' hcontent' =>
      obtain ⟨⟨⟩, rfl⟩ := h.unique h'
      obtain ⟨rfl, rfl⟩ := hcontent.unique hcontent'
      exact ⟨rfl, rfl⟩

/-- The first tag of an element is no comment and no instruction. -/
theorem Element.not_aside {node : Node} (h : Element node cs rest) :
    ¬Markup.aside.Reads cs rest' := by
  intro h'
  cases h with
  | empty h => cases (h.unique h').1
  | content h => cases (h.unique h').1

theorem Body.unique {root root' : Node} (h : Body root cs) (h' : Body root' cs) : root = root' := by
  induction h with
  | root h hroot =>
    cases h' with
    | root h' hroot' =>
      obtain rfl := (List.cons.inj (h.symm.trans h')).2
      exact (hroot.unique hroot').1
    | aside h' haside' =>
      obtain rfl := (List.cons.inj (h.symm.trans h')).2
      exact absurd haside' hroot.not_aside
  | aside h haside hrest ih =>
    cases h' with
    | root h' hroot' =>
      obtain rfl := (List.cons.inj (h.symm.trans h')).2
      exact absurd haside hroot'.not_aside
    | aside h' haside' hrest' =>
      obtain rfl := (List.cons.inj (h.symm.trans h')).2
      obtain ⟨-, rfl⟩ := haside.unique haside'
      exact ih hrest'

/-- A declaration begins with an attribute. -/
theorem attribute?_ne_none {as : List Attribute} (h : Attributes as cs rest)
    (has : isDeclaration as) : attribute? cs ≠ none := by
  cases h with
  | nil => cases has
  | cons h =>
    rw [h]
    exact Option.some_ne_none _

theorem Declared.unique (h : Declared cs rest) (h' : Declared cs rest') : rest = rest' := by
  cases h with
  | declaration hcs has h hend =>
    cases h' with
    | declaration hcs' has' h' hend' =>
      obtain rfl := List.append_cancel_left (hcs.symm.trans hcs')
      obtain ⟨-, rfl⟩ := has.unique has'
      exact (List.cons.inj (List.cons.inj (hend.symm.trans hend')).2).2
    | bare h' => exact absurd (h' _ hcs) (attribute?_ne_none has h)
  | bare h =>
    cases h' with
    | declaration hcs' has' h' => exact absurd (h _ hcs') (attribute?_ne_none has' h')
    | bare => rfl

/-- A document denotes one tree. -/
theorem Document.unique {root root' : Node} (h : Document root cs) (h' : Document root' cs) :
    root = root' := by
  obtain ⟨rest, hdeclared, hbody⟩ := h.body
  obtain ⟨rest', hdeclared', hbody'⟩ := h'.body
  obtain rfl := hdeclared.unique hdeclared'
  exact hbody.unique hbody'

/-! ### Line ends -/

variable {cs' : List Char}

theorem lineEndsFrom_cons {c : Char} (hreturn : c ≠ '\r') (hfeed : c ≠ '\n') (returned : Bool)
    (cs : List Char) : lineEndsFrom returned (c :: cs) = c :: lineEnds cs := by
  rw [lineEndsFrom, if_neg hreturn, if_neg (by simp [hfeed]), lineEnds]

/-- Where no line feed follows, the line ends of two parts are apart. -/
theorem lineEndsFrom_append (h : cs'.head? ≠ some '\n') (returned : Bool) :
    lineEndsFrom returned (cs ++ cs') = lineEndsFrom returned cs ++ lineEnds cs' := by
  induction cs generalizing returned with
  | nil =>
    cases cs' with
    | nil => rfl
    | cons c rest =>
      have hfeed : c ≠ '\n' := fun hc => h (by rw [hc]; rfl)
      simp only [List.nil_append, lineEndsFrom, lineEnds, beq_iff_eq, hfeed, and_false,
        Bool.and_eq_true, if_false]
  | cons c cs ih =>
    rw [List.cons_append, lineEndsFrom, lineEndsFrom, ih, ih]
    split
    · rfl
    split <;> rfl

theorem lineEnds_append (h : cs'.head? ≠ some '\n') :
    lineEnds (cs ++ cs') = lineEnds cs ++ lineEnds cs' := lineEndsFrom_append h false

theorem notMem_lineEndsFrom (returned : Bool) : '\r' ∉ lineEndsFrom returned cs := by
  induction cs generalizing returned with
  | nil => exact List.not_mem_nil
  | cons c cs ih =>
    rw [lineEndsFrom]
    split
    · exact List.not_mem_cons_of_ne_of_not_mem (by decide) (ih true)
    split
    · exact ih false
    · rename_i hreturn _
      exact List.not_mem_cons_of_ne_of_not_mem (Ne.symm hreturn) (ih false)

/-- Text is kept as it is exactly when it holds no carriage return. -/
theorem lineEnds_eq_self_iff : lineEnds cs = cs ↔ '\r' ∉ cs := by
  constructor
  · intro h
    rw [← h]
    exact notMem_lineEndsFrom false
  · intro h
    induction cs with
    | nil => rfl
    | cons c cs ih =>
      rw [List.mem_cons, not_or] at h
      rw [lineEnds, lineEndsFrom, if_neg (Ne.symm h.1), Bool.false_and, if_neg Bool.false_ne_true]
      exact congrArg (c :: ·) (ih h.2)

theorem lineEnds_eq_nil_iff : lineEnds cs = [] ↔ cs = [] := by
  refine ⟨fun h => ?_, fun h => by rw [h]; rfl⟩
  cases cs with
  | nil => rfl
  | cons c cs =>
    rw [lineEnds, lineEndsFrom, Bool.false_and, if_neg Bool.false_ne_true] at h
    split at h <;> cases h

/-- A document may hold line ends of every form. -/
theorem forall_isChar_lineEndsFrom_iff (returned : Bool) :
    (∀ c ∈ lineEndsFrom returned cs, isChar c) ↔ ∀ c ∈ cs, isChar c := by
  induction cs generalizing returned with
  | nil => rfl
  | cons c cs ih =>
    rw [lineEndsFrom, List.forall_mem_cons]
    split
    · rename_i hreturn
      rw [List.forall_mem_cons, ih, hreturn]
      exact and_congr_left fun _ => by decide
    split
    · rename_i hfeed
      rw [Bool.and_eq_true, beq_iff_eq] at hfeed
      rw [ih, hfeed.2]
      exact (and_iff_right (by decide)).symm
    · rw [List.forall_mem_cons, ih]

/-! ### Tokens at the front of a text -/

theorem upTo?_append {c : Char} (h : c ∉ cs) (rest : List Char) :
    upTo? [c] (cs ++ c :: rest) = some (cs, rest) := by
  induction cs with
  | nil => simp [upTo?]
  | cons d cs ih =>
    rw [List.mem_cons, not_or] at h
    rw [List.cons_append, upTo?, ih h.2]
    simp [h.1]

/-- What a name may begin with may also stand behind its first character. -/
theorem isNamePart_of_isNameStart {c : Char} (h : isNameStart c) : isNamePart c := by
  unfold isNameStart isIn at h
  unfold isNamePart isIn nameParts
  rw [List.any_append, h, Bool.true_or]

theorem isNamePart_of_mem {name : List Char} (hname : isName name) :
    ∀ c ∈ name, isNamePart c := by
  cases name with
  | nil => cases hname
  | cons c cs =>
    rw [isName, Bool.and_eq_true, List.all_eq_true] at hname
    exact List.forall_mem_cons.mpr ⟨isNamePart_of_isNameStart hname.1, hname.2⟩

/-- The ranges of a list stand inside those of another. -/
theorem isIn_of_isIn {ranges ranges' : List (Nat × Nat)}
    (h : ∀ r ∈ ranges, ∃ s ∈ ranges', s.1 ≤ r.1 ∧ r.2 ≤ s.2) {c : Char} (hc : isIn ranges c) :
    isIn ranges' c := by
  unfold isIn at hc ⊢
  simp only [List.any_eq_true, Bool.and_eq_true, decide_eq_true_eq] at hc ⊢
  obtain ⟨r, hr, hlow, hhigh⟩ := hc
  obtain ⟨s, hs, hlow', hhigh'⟩ := h r hr
  exact ⟨s, hs, by omega, by omega⟩

/-- A document may hold every name. -/
theorem isChar_of_isNamePart {c : Char} (h : isNamePart c) : isChar c :=
  isIn_of_isIn (by decide) h

theorem name?_append {name rest : List Char} (hname : isName name)
    (hrest : rest.head?.any isNamePart = false) : name? (name ++ rest) = some (name, rest) := by
  have hpart := isNamePart_of_mem hname
  have hstop : rest.takeWhile isNamePart = [] ∧ rest.dropWhile isNamePart = rest := by
    cases rest with
    | nil => exact ⟨rfl, rfl⟩
    | cons c rest =>
      have hc : ¬isNamePart c := Bool.eq_false_iff.mp hrest
      exact ⟨List.takeWhile_cons_of_neg hc, List.dropWhile_cons_of_neg hc⟩
  rw [name?, List.takeWhile_append_of_pos hpart, List.dropWhile_append_of_pos hpart, hstop.1,
    hstop.2, List.append_nil, if_pos hname]

/-- No white space stands in a name. -/
theorem isBlank_of_isNamePart {c : Char} (h : isNamePart c) : isBlank c = false := by
  have hblank : ∀ b ∈ [' ', '\t', '\n', '\r'], !isNamePart b := List.all_eq_true.mp (by decide)
  unfold isBlank
  rw [decide_eq_false_iff_not]
  intro hc
  have hnot := hblank c hc
  rw [h] at hnot
  cases hnot

theorem skipBlanks_name {name : List Char} (hname : isName name) (rest : List Char) :
    skipBlanks (' ' :: (name ++ rest)) = name ++ rest := by
  cases name with
  | nil => cases hname
  | cons c cs =>
    have hc := isBlank_of_isNamePart (isNamePart_of_mem hname c List.mem_cons_self)
    show List.dropWhile isBlank (c :: (cs ++ rest)) = c :: (cs ++ rest)
    exact List.dropWhile_cons_of_neg (Bool.eq_false_iff.mp hc)

end CloudEnvelope.Xml.Grammar
