import CloudEnvelope.Proofs.Json.Grammar

/-!
# What stands outside of strings

A scan that knows strings and their escapes alone finds the characters that stand outside of strings
(`Json.unquoted`).  In standard JSON none of them begins a word for what is no finite number
(`Json.IsText.wordless`), but in what is written for a value with such a number one does
(`Json.isFinite_of_not_hasWord`).  So this is no standard JSON, however it is taken apart.
-/

namespace CloudEnvelope.Json

/-! ### The scan -/

/-- Where a scan stands: outside of strings, inside a string, or behind a backslash in one. -/
inductive Place where
  | outside
  | inside
  | escaped

/-- The characters that stand outside of strings. -/
def unquoted : Place → List Char → List Char
  | _, [] => []
  | .outside, c :: rest => if c = '"' then unquoted .inside rest else c :: unquoted .outside rest
  | .inside, c :: rest =>
    if c = '"' then unquoted .outside rest
    else if c = '\\' then unquoted .escaped rest
    else unquoted .inside rest
  | .escaped, _ :: rest => unquoted .inside rest

/-- Every string that begins in the text ends in it. -/
def Closed (cs : List Char) : Prop :=
  ∀ rest, unquoted .outside (cs ++ rest) = unquoted .outside cs ++ unquoted .outside rest

/-- A character that begins a word for what is no finite number stands outside of strings. -/
def HasWord (cs : List Char) : Prop := ∃ c ∈ unquoted .outside cs, c = 'N' ∨ c = 'I'

variable {cs cs' : List Char}

theorem unquoted_of_notMem (h : '"' ∉ cs) (rest : List Char) :
    unquoted .outside (cs ++ rest) = cs ++ unquoted .outside rest := by
  induction cs with
  | nil => rfl
  | cons c cs ih =>
    obtain ⟨hc, hcs⟩ := not_or.mp (mt List.mem_cons.mpr h)
    rw [List.cons_append, unquoted, if_neg (Ne.symm hc), ih hcs, List.cons_append]

theorem unquoted_eq_self (h : '"' ∉ cs) : unquoted .outside cs = cs := by
  have hunquoted := unquoted_of_notMem h []
  rwa [List.append_nil, unquoted, List.append_nil] at hunquoted

/-- What follows changes nothing of what was found before. -/
theorem prefix_unquoted_append (place : Place) (cs rest : List Char) :
    unquoted place cs <+: unquoted place (cs ++ rest) := by
  induction cs generalizing place with
  | nil => exact List.nil_prefix
  | cons c cs ih =>
    rw [List.cons_append]
    cases place with
    | outside =>
      rw [unquoted, unquoted]
      split
      · exact ih .inside
      · exact List.cons_prefix_cons.mpr ⟨rfl, ih .outside⟩
    | inside =>
      rw [unquoted, unquoted]
      split
      · exact ih .outside
      · split
        · exact ih .escaped
        · exact ih .inside
    | escaped => exact ih .inside

namespace Closed

theorem of_notMem (h : '"' ∉ cs) : Closed cs := by
  intro rest
  rw [unquoted_of_notMem h, unquoted_eq_self h]

theorem append (h : Closed cs) (h' : Closed cs') : Closed (cs ++ cs') := by
  intro rest
  rw [List.append_assoc, h, h', h, List.append_assoc]

theorem hasWord_append_iff (h : Closed cs) : HasWord (cs ++ cs') ↔ HasWord cs ∨ HasWord cs' := by
  simp only [HasWord, h cs', List.mem_append, or_and_right, exists_or]

end Closed

theorem HasWord.append_right (h : HasWord cs) (cs' : List Char) : HasWord (cs ++ cs') := by
  obtain ⟨c, hc, hword⟩ := h
  exact ⟨c, (prefix_unquoted_append .outside cs cs').subset hc, hword⟩

/-- A hexadecimal digit is neither a quote nor a backslash. -/
theorem unquoted_hex {c : Char} {n : Nat} (h : hexValue? c = some n) (rest : List Char) :
    unquoted .inside (c :: rest) = unquoted .inside rest := by
  have hquote : c ≠ '"' := by
    rintro rfl
    cases h
  have hslash : c ≠ '\\' := by
    rintro rfl
    cases h
  rw [unquoted, if_neg hquote, if_neg hslash]

/-- Nothing of the body of a string stands outside. -/
theorem StringBody.unquoted {t : Text} {body : List Char} (h : StringBody t body)
    (rest : List Char) :
    Json.unquoted .inside (body ++ '"' :: rest) = Json.unquoted .outside rest := by
  induction h with
  | nil => rfl
  | plain _ hquote hslash _ ih =>
    rw [List.cons_append, Json.unquoted, if_neg hquote, if_neg hslash, ih]
  | short _ _ ih => exact ih
  | @unit a b c d u t cs hu _ ih =>
    simp only [unit?, Option.bind_eq_bind, Option.bind_eq_some_iff] at hu
    obtain ⟨w, hw, x, hx, y, hy, z, hz, -⟩ := hu
    show Json.unquoted .inside (a :: b :: c :: d :: (cs ++ '"' :: rest)) = _
    rw [unquoted_hex hw, unquoted_hex hx, unquoted_hex hy, unquoted_hex hz, ih]

theorem StringBody.unquoted_literal {t : Text} {body : List Char} (h : StringBody t body) :
    Json.unquoted .outside ('"' :: (body ++ ['"'])) = [] :=
  h.unquoted []

theorem StringBody.closed {t : Text} {body : List Char} (h : StringBody t body) :
    Closed ('"' :: (body ++ ['"'])) := by
  intro rest
  rw [h.unquoted_literal, List.cons_append, List.append_assoc]
  exact h.unquoted rest

/-! ### Parts of texts -/

/-- The characters are no quotes and begin no word. -/
def Harmless (cs : List Char) : Prop := ∀ c ∈ cs, c ≠ '"' ∧ c ≠ 'N' ∧ c ≠ 'I'

instance (cs : List Char) : Decidable (Harmless cs) :=
  inferInstanceAs (Decidable (∀ c ∈ cs, c ≠ '"' ∧ c ≠ 'N' ∧ c ≠ 'I'))

theorem Harmless.closed (h : Harmless cs) : Closed cs := .of_notMem fun hmem => (h _ hmem).1 rfl

theorem Blanks.harmless (h : Blanks cs) : Harmless cs := by
  intro c hc
  have hblank := h c hc
  refine ⟨?_, ?_, ?_⟩ <;>
  · rintro rfl
    cases hblank

theorem IsNumeral.harmless (h : IsNumeral cs) : Harmless cs := by
  intro c hc
  have hmem := mem_numeral h c hc
  refine ⟨?_, ?_, ?_⟩ <;>
  · rintro rfl
    revert hmem
    decide

variable {g : Grammar} {p : Part}

/-- A property of strings, numbers and all that is harmless belongs to every part that is spelled,
if neighbours that have it have it together. -/
theorem Spells.of_append {Q : List Char → Prop} (happend : ∀ cs cs', Q cs → Q cs' → Q (cs ++ cs'))
    (hharmless : ∀ cs, Harmless cs → Q cs)
    (hstring : ∀ t body, StringBody t body → Q ('"' :: (body ++ ['"'])))
    (hnumeral : ∀ cs, g.Numeral cs → Q cs) (h : Spells g p cs) : Q cs := by
  have hsign : ∀ c, c ≠ '"' ∧ c ≠ 'N' ∧ c ≠ 'I' → Q [c] := fun c hc =>
    hharmless [c] (by simpa [Harmless] using hc)
  have hframe : ∀ c d cs, c ≠ '"' ∧ c ≠ 'N' ∧ c ≠ 'I' → d ≠ '"' ∧ d ≠ 'N' ∧ d ≠ 'I' → Q cs →
      Q (c :: (cs ++ [d])) :=
    fun c d cs hc hd hcs => happend [c] _ (hsign c hc) (happend cs [d] hcs (hsign d hd))
  have hcomma : ∀ cs cs', Q cs → Q cs' → Q (cs ++ ',' :: cs') := fun cs cs' hcs hcs' =>
    happend cs _ hcs (happend [','] cs' (hsign _ (by decide)) hcs')
  induction h with
  | null => exact hharmless _ (by simp [Harmless])
  | false => exact hharmless _ (by simp [Harmless])
  | true => exact hharmless _ (by simp [Harmless])
  | number h => exact hnumeral _ h
  | text h => exact hstring _ _ h
  | emptyArray hb => exact hframe _ _ _ (by decide) (by decide) (hharmless _ hb.harmless)
  | array _ ih => exact hframe _ _ _ (by decide) (by decide) ih
  | ofObject _ ih => exact ih
  | emptyObject hb => exact hframe _ _ _ (by decide) (by decide) (hharmless _ hb.harmless)
  | object _ _ ih => exact hframe _ _ _ (by decide) (by decide) ih
  | item hb _ hb' ih =>
    exact happend _ _ (hharmless _ hb.harmless) (happend _ _ ih (hharmless _ hb'.harmless))
  | items _ _ ih ih' => exact hcomma _ _ ih ih'
  | @member b₁ b₂ b₃ b₄ body cs t hb₁ hname hb₂ hb₃ _ hb₄ ih =>
    have hvalue : Q (b₃ ++ (cs ++ b₄)) :=
      happend _ _ (hharmless _ hb₃.harmless) (happend _ _ ih (hharmless _ hb₄.harmless))
    have hcolon : Q (b₂ ++ ':' :: (b₃ ++ (cs ++ b₄))) :=
      happend _ _ (hharmless _ hb₂.harmless) (happend [':'] _ (hsign _ (by decide)) hvalue)
    have hmember := happend _ _ (hharmless _ hb₁.harmless)
      (happend _ _ (hstring _ _ hname) hcolon)
    rwa [List.cons_append, List.append_assoc] at hmember
  | members _ _ ih ih' => exact hcomma _ _ ih ih'

/-- Every string in a part that is spelled ends in it. -/
theorem Spells.closed (hnumeral : ∀ cs, g.Numeral cs → '"' ∉ cs) (h : Spells g p cs) :
    Closed cs :=
  h.of_append (fun _ _ => Closed.append) (fun _ => Harmless.closed) (fun _ _ => StringBody.closed)
    fun cs hcs => .of_notMem (hnumeral cs hcs)

/-- Every string ends in the text, and no word begins outside of them. -/
def Wordless (cs : List Char) : Prop := Closed cs ∧ ¬HasWord cs

theorem Wordless.append (h : Wordless cs) (h' : Wordless cs') : Wordless (cs ++ cs') := by
  refine ⟨h.1.append h'.1, ?_⟩
  rw [h.1.hasWord_append_iff, not_or]
  exact ⟨h.2, h'.2⟩

theorem Harmless.wordless (h : Harmless cs) : Wordless cs := by
  refine ⟨h.closed, ?_⟩
  rintro ⟨c, hc, hword⟩
  rw [unquoted_eq_self fun hmem => (h _ hmem).1 rfl] at hc
  exact hword.elim (h c hc).2.1 (h c hc).2.2

theorem StringBody.wordless {t : Text} {body : List Char} (h : StringBody t body) :
    Wordless ('"' :: (body ++ ['"'])) := by
  refine ⟨h.closed, ?_⟩
  rintro ⟨c, hc, -⟩
  rw [h.unquoted_literal] at hc
  cases hc

/-- Standard JSON has no words for what is no finite number. -/
theorem Spells.wordless (h : Spells .standard p cs) : Wordless cs :=
  h.of_append (fun _ _ => Wordless.append) (fun _ => Harmless.wordless)
    (fun _ _ => StringBody.wordless) fun _ hcs => (IsNumeral.harmless hcs).wordless

theorem IsText.wordless (h : IsText .standard p cs) : Wordless cs := by
  obtain ⟨hbefore, hspells, hafter⟩ := h
  exact hbefore.harmless.wordless.append (hspells.wordless.append hafter.harmless.wordless)

/-! ### Written values -/

theorem hasWord_of_mem_words (h : cs ∈ Grammar.words) : HasWord cs := by
  simp only [Grammar.words, List.mem_cons, List.not_mem_nil, or_false] at h
  rcases h with rfl | rfl | rfl
  · exact ⟨'N', by simp [unquoted], .inl rfl⟩
  · exact ⟨'I', by simp [unquoted], .inr rfl⟩
  · exact ⟨'I', by simp [unquoted], .inr rfl⟩

theorem HasWord.cons (h : HasWord cs) {c : Char} (hc : c ≠ '"') : HasWord (c :: cs) := by
  obtain ⟨d, hd, hword⟩ := h
  refine ⟨d, ?_, hword⟩
  rw [unquoted, if_neg hc]
  exact List.mem_cons_of_mem c hd

theorem HasWord.member (h : HasWord cs) {name : Text} (hname : (content .unicode name).LoneFree) :
    HasWord ('"' :: ((content .unicode name).chars ++ '"' :: ':' :: cs)) := by
  obtain ⟨u, -, hbody⟩ := exists_stringBody_content hname
  obtain ⟨c, hc, hword⟩ := h.cons (c := ':') (by decide)
  refine ⟨c, ?_, hword⟩
  show c ∈ unquoted .inside ((content .unicode name).chars ++ '"' :: ':' :: cs)
  rwa [hbody.unquoted]

/-- Every string that is written in a value ends in it. -/
theorem closed_write {j : Json} (hnames : j.distinctNames) (hlone : (write .unicode j).LoneFree) :
    Closed (write .unicode j).chars := by
  have hquote : ∀ cs, Grammar.lenient.Numeral cs → '"' ∉ cs := by
    rintro cs (hcs | hcs) hmem
    · exact (hcs.harmless _ hmem).1 rfl
    · have hall : ∀ cs ∈ Grammar.words, '"' ∉ cs := by decide
      exact hall cs hcs hmem
  exact (spells_write (g := .lenient) (fun n => .inl (isNumeral_ofInt n)) (fun _ h => h) j
    (fun x _ => numeral_lenient x) hnames hlone).closed hquote

mutual

/-- A value that is written without words has finite numbers only. -/
theorem isFinite_of_not_hasWord (j : Json) (hnames : j.distinctNames)
    (hlone : (write .unicode j).LoneFree) (h : ¬HasWord (write .unicode j).chars) :
    ∀ x ∈ j.floats, IsFinite x := by
  match j with
  | null => exact fun _ hmem => absurd hmem List.not_mem_nil
  | bool b => exact fun _ hmem => absurd hmem List.not_mem_nil
  | int n => exact fun _ hmem => absurd hmem List.not_mem_nil
  | float x =>
    intro y hy
    rw [List.mem_singleton.mp hy]
    by_contra hx
    exact h (hasWord_of_mem_words (mem_words_of_not_isFinite hx))
  | text t => exact fun _ hmem => absurd hmem List.not_mem_nil
  | array items =>
    rw [write_array, Text.chars_cons, Text.chars_append] at h
    exact isFinite_of_items items hnames (loneFree_write_array_iff.mp hlone)
      fun hitems => h ((hitems.append_right _).cons (by decide))
  | object members =>
    rw [write_object, Text.chars_cons, Text.chars_append] at h
    exact isFinite_of_members members hnames.2 (loneFree_write_object_iff.mp hlone)
      fun hmembers => h ((hmembers.append_right _).cons (by decide))

theorem isFinite_of_items (items : List Json) (hnames : allDistinct items)
    (hlone : ∀ j ∈ items, (write .unicode j).LoneFree)
    (h : ¬HasWord (joinedItems .unicode items).chars) : ∀ x ∈ itemsFloats items, IsFinite x := by
  match items with
  | [] => exact fun _ hmem => absurd hmem List.not_mem_nil
  | [j] =>
    rw [itemsFloats, itemsFloats, List.append_nil]
    exact isFinite_of_not_hasWord j hnames.1 (hlone j List.mem_cons_self) h
  | j :: k :: items =>
    have hj := hlone j List.mem_cons_self
    rw [joinedItems_cons, Text.chars_append, Text.chars_cons,
      (closed_write hnames.1 hj).hasWord_append_iff, not_or] at h
    rw [itemsFloats, List.forall_mem_append]
    exact ⟨isFinite_of_not_hasWord j hnames.1 hj h.1,
      isFinite_of_items (k :: items) hnames.2
        (fun k' hk' => hlone k' (List.mem_cons_of_mem j hk'))
        fun hrest => h.2 (hrest.cons (by decide))⟩

theorem isFinite_of_members (members : List (Text × Json)) (hnames : membersDistinct members)
    (hlone : ∀ m ∈ members, (content .unicode m.1).LoneFree ∧ (write .unicode m.2).LoneFree)
    (h : ¬HasWord (joinedMembers .unicode members).chars) :
    ∀ x ∈ membersFloats members, IsFinite x := by
  match members with
  | [] => exact fun _ hmem => absurd hmem List.not_mem_nil
  | [(name, j)] =>
    obtain ⟨hname, hwrite⟩ := hlone (name, j) List.mem_cons_self
    rw [joinedMembers_one] at h
    simp only [Text.chars_cons, Text.chars_append] at h
    rw [membersFloats, membersFloats, List.append_nil]
    exact isFinite_of_not_hasWord j hnames.1 hwrite fun hj => h (hj.member hname)
  | (name, j) :: m :: members =>
    obtain ⟨hname, hwrite⟩ := hlone (name, j) List.mem_cons_self
    rw [joinedMembers_cons] at h
    simp only [Text.chars_cons, Text.chars_append] at h
    replace h := mt (HasWord.member · hname) h
    rw [(closed_write hnames.1 hwrite).hasWord_append_iff, not_or] at h
    rw [membersFloats, List.forall_mem_append]
    exact ⟨isFinite_of_not_hasWord j hnames.1 hwrite h.1,
      isFinite_of_members (m :: members) hnames.2
        (fun m' hm' => hlone m' (List.mem_cons_of_mem (name, j) hm'))
        fun hrest => h.2 (hrest.cons (by decide))⟩

end

/-- What is written for a value is standard JSON exactly when its numbers are finite. -/
theorem isText_write_iff {j : Json} (hnames : j.distinctNames)
    (hlone : (write .unicode j).LoneFree) :
    IsText .standard .value (write .unicode j).chars ↔ ∀ x ∈ j.floats, IsFinite x := by
  constructor
  · intro h
    exact isFinite_of_not_hasWord j hnames hlone h.wordless.2
  · intro h
    exact (spells_write (g := .standard) isNumeral_ofInt (fun _ _ => trivial) j
      (fun x hx => isNumeral_of_isFinite (h x hx)) hnames hlone).isText

/-- An object is written with distinct names, in standard JSON exactly when its numbers are
finite. -/
theorem isText_write_object_iff {members : List (Text × Json)}
    (hnames : (object members).distinctNames) (hlone : (write .unicode (object members)).LoneFree) :
    IsText .strict .object (write .unicode (object members)).chars ↔
      ∀ x ∈ membersFloats members, IsFinite x := by
  constructor
  · intro h
    exact (isText_write_iff hnames hlone).mp h.standard.value
  · intro h
    exact (spells_write_object (g := .strict) isNumeral_ofInt (fun _ h => h)
      (fun x hx => isNumeral_of_isFinite (h x hx)) hnames hlone).isText

end CloudEnvelope.Json
