import CloudEnvelope.Proofs.Json.Ascii
import CloudEnvelope.Proofs.Json.Denotation
import CloudEnvelope.Proofs.Json.Numeral

/-!
# The grammar of JSON texts

`Json.Spells` is the grammar of JSON as a relation between a part of a text and its characters.  It
leaves open how a number may be spelled and which names the members of an object may have together
(`Json.Grammar`): the standard asks for numerals and allows all names (`Grammar.standard`), and the
words for what has no numeral belong to `Grammar.lenient` only.

`Json.spells_write`: what is written for a value is in the grammar that has a form for each of its
floating-point numbers.
-/

namespace CloudEnvelope.Json

/-! ### Strings -/

/-- The code units that are spelled between the quotes of a string: a character stands for itself
unless it is a quote, a backslash or a control character, and everything can be escaped. -/
inductive StringBody : Text → List Char → Prop
  | nil : StringBody [] []
  | plain {c : Char} {t : Text} {cs : List Char} (hcontrol : 0x20 ≤ c.toNat) (hquote : c ≠ '"')
      (hslash : c ≠ '\\') (h : StringBody t cs) : StringBody (.scalar c :: t) (c :: cs)
  | short {letter c : Char} {t : Text} {cs : List Char} (hc : escaped? letter = some c)
      (h : StringBody t cs) : StringBody (.scalar c :: t) ('\\' :: letter :: cs)
  | unit {a b c d : Char} {u : CodePoint} {t : Text} {cs : List Char}
      (hu : unit? a b c d = some u) (h : StringBody t cs) :
      StringBody (u :: t) ('\\' :: 'u' :: a :: b :: c :: d :: cs)

/-- The reader of strings reads a body up to the quote behind it. -/
theorem exists_body_of_units? {cs rest : List Char} {t : Text} (h : units? cs = some (t, rest)) :
    ∃ body, cs = body ++ '"' :: rest ∧ StringBody t body := by
  fun_induction units? cs generalizing t rest with
  | case1 => cases h
  | case2 more =>
    cases h
    exact ⟨[], rfl, .nil⟩
  | case3 a b c d more ih =>
    simp only [Option.bind_eq_bind, Option.bind_eq_some_iff, Prod.exists, Option.some.injEq,
      Prod.mk.injEq] at h
    obtain ⟨u, hu, t', rest', hmore, rfl, rfl⟩ := h
    obtain ⟨body, rfl, hbody⟩ := ih hmore
    exact ⟨_, rfl, .unit hu hbody⟩
  | case4 e more _ ih =>
    simp only [Option.bind_eq_bind, Option.bind_eq_some_iff, Prod.exists, Option.some.injEq,
      Prod.mk.injEq] at h
    obtain ⟨c, hc, t', rest', hmore, rfl, rfl⟩ := h
    obtain ⟨body, rfl, hbody⟩ := ih hmore
    exact ⟨_, rfl, .short hc hbody⟩
  | case5 => cases h
  | case6 c more hquote hunit hescape hplain ih =>
    simp only [Option.bind_eq_bind, Option.bind_eq_some_iff, Prod.exists, Option.some.injEq,
      Prod.mk.injEq] at h
    obtain ⟨t', rest', hmore, rfl, rfl⟩ := h
    obtain ⟨body, rfl, hbody⟩ := ih hmore
    simp only [Bool.or_eq_true, decide_eq_true_eq, beq_iff_eq, not_or, Nat.not_lt] at hplain
    exact ⟨_, rfl, .plain hplain.1 hquote hplain.2 hbody⟩

/-- A text is spelled between the quotes that are written for it. -/
theorem exists_stringBody_content {t : Text} (h : (content .unicode t).LoneFree) :
    ∃ u, joinPairs u = t ∧ StringBody u (content .unicode t).chars := by
  obtain ⟨body, hbody, hspelled⟩ := exists_body_of_units? (units?_content h [])
  have hunpaired := (loneFree_of_content h).unpaired
  refine ⟨_, joinPairs_flatMap_units .unicode hunpaired, ?_⟩
  rwa [List.append_cancel_right hbody]

/-! ### Values -/

/-- What grammars of JSON differ in: the spellings of numbers, and the names that the members of one
object may have together. -/
structure Grammar where
  Numeral : List Char → Prop
  Names : List Text → Prop

namespace Grammar

/-- Standard JSON: numbers are numerals, and objects may have any names. -/
def standard : Grammar := ⟨IsNumeral, fun _ => True⟩

/-- Standard JSON whose objects have no name twice. -/
def strict : Grammar := ⟨IsNumeral, List.Nodup⟩

/-- The words for numbers that have no numeral. -/
def words : List (List Char) := ["NaN".toList, "Infinity".toList, "-Infinity".toList]

/-- JSON whose objects have no name twice, and that has words for what is no finite number. -/
def lenient : Grammar := ⟨fun cs => IsNumeral cs ∨ cs ∈ words, List.Nodup⟩

end Grammar

/-- The parts that a JSON text is made of.  Of members the names are known, in order. -/
inductive Part where
  | value
  | object
  | items
  | members (names : List Text)

/-- Nothing but spaces, tabs and line ends. -/
def Blanks (cs : List Char) : Prop := ∀ c ∈ cs, isBlank c

/-- The characters spell a part of a JSON text. -/
inductive Spells (g : Grammar) : Part → List Char → Prop
  | null : Spells g .value "null".toList
  | false : Spells g .value "false".toList
  | true : Spells g .value "true".toList
  | number {cs : List Char} (h : g.Numeral cs) : Spells g .value cs
  | text {t : Text} {body : List Char} (h : StringBody t body) :
      Spells g .value ('"' :: (body ++ ['"']))
  | emptyArray {b : List Char} (hb : Blanks b) : Spells g .value ('[' :: (b ++ [']']))
  | array {cs : List Char} (h : Spells g .items cs) : Spells g .value ('[' :: (cs ++ [']']))
  | ofObject {cs : List Char} (h : Spells g .object cs) : Spells g .value cs
  | emptyObject {b : List Char} (hb : Blanks b) (hnames : g.Names []) :
      Spells g .object ('\x7b' :: (b ++ ['\x7d']))
  | object {names : List Text} {cs : List Char} (h : Spells g (.members names) cs)
      (hnames : g.Names names) : Spells g .object ('\x7b' :: (cs ++ ['\x7d']))
  | item {b b' cs : List Char} (hb : Blanks b) (h : Spells g .value cs) (hb' : Blanks b') :
      Spells g .items (b ++ (cs ++ b'))
  | items {cs cs' : List Char} (h : Spells g .items cs) (h' : Spells g .items cs') :
      Spells g .items (cs ++ ',' :: cs')
  | member {b₁ b₂ b₃ b₄ body cs : List Char} {t : Text} (hb₁ : Blanks b₁)
      (hname : StringBody t body) (hb₂ : Blanks b₂) (hb₃ : Blanks b₃) (h : Spells g .value cs)
      (hb₄ : Blanks b₄) :
      Spells g (.members [joinPairs t])
        (b₁ ++ '"' :: (body ++ '"' :: (b₂ ++ ':' :: (b₃ ++ (cs ++ b₄)))))
  | members {names names' : List Text} {cs cs' : List Char} (h : Spells g (.members names) cs)
      (h' : Spells g (.members names') cs') :
      Spells g (.members (names ++ names')) (cs ++ ',' :: cs')

/-- A whole text is a part with blanks around it. -/
inductive IsText (g : Grammar) (p : Part) : List Char → Prop
  | mk {before cs after : List Char} (hbefore : Blanks before) (h : Spells g p cs)
      (hafter : Blanks after) : IsText g p (before ++ (cs ++ after))

theorem blanks_nil : Blanks [] := fun _ hmem => absurd hmem List.not_mem_nil

variable {g g' : Grammar} {p : Part} {cs : List Char}

theorem Spells.isText (h : Spells g p cs) : IsText g p cs := by
  have htext := IsText.mk blanks_nil h blanks_nil
  rwa [List.nil_append, List.append_nil] at htext

/-- A grammar that allows more spells more. -/
theorem Spells.mono (hnumeral : ∀ cs, g.Numeral cs → g'.Numeral cs)
    (hnames : ∀ names, g.Names names → g'.Names names) (h : Spells g p cs) : Spells g' p cs := by
  induction h with
  | null => exact .null
  | false => exact .false
  | true => exact .true
  | number h => exact .number (hnumeral _ h)
  | text h => exact .text h
  | emptyArray hb => exact .emptyArray hb
  | array _ ih => exact .array ih
  | ofObject _ ih => exact .ofObject ih
  | emptyObject hb h => exact .emptyObject hb (hnames _ h)
  | object _ h ih => exact .object ih (hnames _ h)
  | item hb _ hb' ih => exact .item hb ih hb'
  | items _ _ ih ih' => exact .items ih ih'
  | member hb₁ hname hb₂ hb₃ _ hb₄ ih => exact .member hb₁ hname hb₂ hb₃ ih hb₄
  | members _ _ ih ih' => exact .members ih ih'

/-- JSON whose objects have no name twice is standard JSON. -/
theorem IsText.standard (h : IsText .strict p cs) : IsText .standard p cs := by
  obtain ⟨hbefore, hspells, hafter⟩ := h
  exact .mk hbefore (Spells.mono (g := .strict) (fun _ h => h) (fun _ _ => trivial) hspells) hafter

theorem IsText.value (h : IsText g .object cs) : IsText g .value cs := by
  obtain ⟨hbefore, hspells, hafter⟩ := h
  exact .mk hbefore (.ofObject hspells) hafter

/-! ### Written values -/

mutual

/-- The floating-point numbers of a value, in order. -/
def floats : Json → List Binary64
  | float x => [x]
  | array items => itemsFloats items
  | object members => membersFloats members
  | _ => []

/-- The floating-point numbers of items, in order. -/
def itemsFloats : List Json → List Binary64
  | [] => []
  | j :: rest => floats j ++ itemsFloats rest

/-- The floating-point numbers of the values of members, in order. -/
def membersFloats : List (Text × Json) → List Binary64
  | [] => []
  | (_, j) :: rest => floats j ++ membersFloats rest

end

theorem membersFloats_eq_flatMap (members : List (Text × Json)) :
    membersFloats members = members.flatMap fun m => m.2.floats := by
  induction members with
  | nil => rfl
  | cons m rest ih => rw [membersFloats, ih, List.flatMap_cons]

theorem spells_item {cs : List Char} (h : Spells g .value cs) : Spells g .items cs := by
  have hitem := Spells.item blanks_nil h blanks_nil
  rwa [List.nil_append, List.append_nil] at hitem

theorem spells_member {name : Text} {cs : List Char} (hname : (content .unicode name).LoneFree)
    (h : Spells g .value cs) :
    Spells g (.members [name]) ('"' :: ((content .unicode name).chars ++ '"' :: ':' :: cs)) := by
  obtain ⟨u, rfl, hbody⟩ := exists_stringBody_content hname
  have hmember := Spells.member blanks_nil hbody blanks_nil blanks_nil h blanks_nil
  rwa [List.append_nil] at hmember

theorem spells_members {name : Text} {names : List Text} {cs cs' : List Char}
    (hname : (content .unicode name).LoneFree) (h : Spells g .value cs)
    (h' : Spells g (.members names) cs') : Spells g (.members (name :: names))
      ('"' :: ((content .unicode name).chars ++ '"' :: ':' :: (cs ++ ',' :: cs'))) := by
  have hmembers := Spells.members (spells_member hname h) h'
  simpa only [List.cons_append, List.nil_append, List.append_assoc] using hmembers

/-- An object of distinct names is spelled with its members between the braces. -/
theorem spells_object (hdistinct : ∀ names, names.Nodup → g.Names names)
    {members : List (Text × Json)} (hnames : (members.map (·.1)).Nodup)
    (h : members ≠ [] →
      Spells g (.members (members.map (·.1))) (joinedMembers .unicode members).chars) :
    Spells g .object (write .unicode (object members)).chars := by
  cases members with
  | nil => exact .emptyObject blanks_nil (hdistinct [] List.nodup_nil)
  | cons m members =>
    rw [write_object, Text.chars_cons, Text.chars_append]
    exact .object (h (List.cons_ne_nil m members)) (hdistinct _ hnames)

mutual

/-- What is written for a value without blanks is in a grammar that has a form for its numbers and
allows distinct names. -/
theorem spells_write (hint : ∀ n : Int, g.Numeral (Text.ofInt n).chars)
    (hdistinct : ∀ names, names.Nodup → g.Names names) (j : Json)
    (hfloats : ∀ x ∈ j.floats, g.Numeral (x.write .json).chars) (hnames : j.distinctNames)
    (hlone : (write .unicode j).LoneFree) : Spells g .value (write .unicode j).chars := by
  match j with
  | null => exact .null
  | bool false => exact .false
  | bool true => exact .true
  | int n => exact .number (hint n)
  | float x => exact .number (hfloats x List.mem_cons_self)
  | text t =>
    rw [write, loneFree_writeString_iff] at hlone
    obtain ⟨u, rfl, hbody⟩ := exists_stringBody_content hlone
    rw [write, writeString_eq, Text.chars_cons, Text.chars_append]
    exact .text hbody
  | array [] => exact .emptyArray blanks_nil
  | array (j :: items) =>
    have hitems := spells_writeItems hint hdistinct (j :: items) (List.cons_ne_nil _ _) hfloats
      hnames (loneFree_write_array_iff.mp hlone)
    rw [write_array, Text.chars_cons, Text.chars_append]
    exact .array hitems
  | object members =>
    exact .ofObject (spells_object hdistinct hnames.1 fun hne =>
      spells_writeMembers hint hdistinct members hne hfloats hnames.2
        (loneFree_write_object_iff.mp hlone))

theorem spells_writeItems (hint : ∀ n : Int, g.Numeral (Text.ofInt n).chars)
    (hdistinct : ∀ names, names.Nodup → g.Names names) (items : List Json) (hne : items ≠ [])
    (hfloats : ∀ x ∈ itemsFloats items, g.Numeral (x.write .json).chars)
    (hnames : allDistinct items) (hlone : ∀ j ∈ items, (write .unicode j).LoneFree) :
    Spells g .items (joinedItems .unicode items).chars := by
  match items with
  | [] => exact absurd rfl hne
  | [j] =>
    rw [itemsFloats, List.forall_mem_append] at hfloats
    exact spells_item (spells_write hint hdistinct j hfloats.1 hnames.1
      (hlone j List.mem_cons_self))
  | j :: k :: items =>
    rw [itemsFloats, List.forall_mem_append] at hfloats
    have hfirst := spells_write hint hdistinct j hfloats.1 hnames.1 (hlone j List.mem_cons_self)
    have hrest := spells_writeItems hint hdistinct (k :: items) (List.cons_ne_nil _ _) hfloats.2
      hnames.2 fun k' hk' => hlone k' (List.mem_cons_of_mem j hk')
    rw [joinedItems_cons, Text.chars_append, Text.chars_cons]
    exact .items (spells_item hfirst) hrest

theorem spells_writeMembers (hint : ∀ n : Int, g.Numeral (Text.ofInt n).chars)
    (hdistinct : ∀ names, names.Nodup → g.Names names) (members : List (Text × Json))
    (hne : members ≠ [])
    (hfloats : ∀ x ∈ membersFloats members, g.Numeral (x.write .json).chars)
    (hnames : membersDistinct members)
    (hlone : ∀ m ∈ members, (content .unicode m.1).LoneFree ∧ (write .unicode m.2).LoneFree) :
    Spells g (.members (members.map (·.1))) (joinedMembers .unicode members).chars := by
  match members with
  | [] => exact absurd rfl hne
  | [(name, j)] =>
    rw [membersFloats, List.forall_mem_append] at hfloats
    obtain ⟨hname, hwrite⟩ := hlone (name, j) List.mem_cons_self
    rw [joinedMembers_one]
    simp only [Text.chars_cons, Text.chars_append]
    exact spells_member hname (spells_write hint hdistinct j hfloats.1 hnames.1 hwrite)
  | (name, j) :: m :: members =>
    rw [membersFloats, List.forall_mem_append] at hfloats
    obtain ⟨hname, hwrite⟩ := hlone (name, j) List.mem_cons_self
    have hfirst := spells_write hint hdistinct j hfloats.1 hnames.1 hwrite
    have hrest := spells_writeMembers hint hdistinct (m :: members) (List.cons_ne_nil _ _)
      hfloats.2 hnames.2 fun m' hm' => hlone m' (List.mem_cons_of_mem (name, j) hm')
    rw [joinedMembers_cons]
    simp only [Text.chars_cons, Text.chars_append]
    exact spells_members hname hfirst hrest

end

/-- An object of distinct names is written as an object. -/
theorem spells_write_object (hint : ∀ n : Int, g.Numeral (Text.ofInt n).chars)
    (hdistinct : ∀ names, names.Nodup → g.Names names) {members : List (Text × Json)}
    (hfloats : ∀ x ∈ membersFloats members, g.Numeral (x.write .json).chars)
    (hnames : (object members).distinctNames) (hlone : (write .unicode (object members)).LoneFree) :
    Spells g .object (write .unicode (object members)).chars :=
  spells_object hdistinct hnames.1 fun hne =>
    spells_writeMembers hint hdistinct members hne hfloats hnames.2
      (loneFree_write_object_iff.mp hlone)

/-! ### Words -/

/-- The number is one that has a numeral. -/
def IsFinite : Binary64 → Prop
  | .finite _ _ => True
  | _ => False

instance : DecidablePred IsFinite
  | .finite _ _ => isTrue trivial
  | .infinite _ => isFalse id
  | .nan => isFalse id

theorem isNumeral_of_isFinite {x : Binary64} (h : IsFinite x) :
    IsNumeral (x.write .json).chars := by
  cases x with
  | finite negative x => exact isNumeral_write negative x
  | infinite negative => exact absurd h id
  | nan => exact absurd h id

theorem mem_words_of_not_isFinite {x : Binary64} (h : ¬IsFinite x) :
    (x.write .json).chars ∈ Grammar.words := by
  cases x with
  | finite negative x => exact absurd trivial h
  | infinite negative => cases negative <;> decide
  | nan => decide

/-- Every number is spelled by a numeral or a word. -/
theorem numeral_lenient (x : Binary64) : Grammar.lenient.Numeral (x.write .json).chars := by
  by_cases hx : IsFinite x
  · exact .inl (isNumeral_of_isFinite hx)
  · exact .inr (mem_words_of_not_isFinite hx)

end CloudEnvelope.Json
