import CloudEnvelope.Proofs.Json.Value
import Mathlib.Tactic.Common

/-!
# What JSON texts denote

However a text is written, the value that is read from it tells the names of its objects apart at
every level (`Json.distinctNames_of_read?`): a repeated name keeps its first place and takes its
last value.  So a value that is read, and holds no floating-point number (`Json.FloatFree`), is read
back from what is written for it.

A string is shorter than the JSON text that denotes it, because of the quotes
(`Json.length_lt_of_read?_text`), and so no JSON text denotes itself.
-/

namespace CloudEnvelope.Json

/-! ### What a step reads -/

/-- No value starts where nothing stands. -/
theorem value?_nil (fuel : Nat) : value? fuel [] = none := by
  cases fuel <;> rfl

/-- No value starts with a closing bracket. -/
theorem value?_closing (fuel : Nat) (cs : List Char) : value? fuel (']' :: cs) = none := by
  cases fuel <;> rfl

theorem items?_eq_none {fuel : Nat} {cs : List Char} (h : ∀ fuel, value? fuel cs = none) :
    items? fuel cs = none := by
  cases fuel with
  | zero => rfl
  | succ fuel =>
    rw [items?, h]
    rfl

theorem members?_eq_none {fuel : Nat} {cs : List Char} (h : ∀ more, cs ≠ '"' :: more) :
    members? fuel cs = none := by
  cases fuel with
  | zero => rfl
  | succ fuel =>
    rw [members?]
    exact h

/-- A value is a string, an array, an object, or else a word or a number. -/
theorem value?_eq_some_iff {fuel : Nat} {cs rest : List Char} {j : Json} :
    value? (fuel + 1) cs = some (j, rest) ↔
      (∃ more t, cs = '"' :: more ∧ string? more = some (t, rest) ∧ j = text t) ∨
      (∃ more items, cs = '[' :: more ∧
        (skipBlanks more = ']' :: rest ∧ items = [] ∨
          items? fuel (skipBlanks more) = some (items, rest)) ∧ j = array items) ∨
      (∃ more members, cs = '\x7b' :: more ∧
        (skipBlanks more = '\x7d' :: rest ∧ members = [] ∨
          members? fuel (skipBlanks more) = some (members, rest)) ∧ j = objectOfList members) ∨
      atom? cs = some (j, rest) := by
  constructor
  · intro h
    rw [value?.eq_def] at h
    dsimp only at h
    split at h
    · rename_i more
      simp only [Option.bind_eq_bind, Option.bind_eq_some_iff, Prod.exists, Option.some.injEq,
        Prod.mk.injEq] at h
      obtain ⟨t, rest', hstring, rfl, rfl⟩ := h
      exact .inl ⟨more, t, rfl, hstring, rfl⟩
    · rename_i more
      refine .inr (.inl ?_)
      split at h
      · rename_i hclosing
        cases h
        exact ⟨more, [], rfl, .inl ⟨hclosing, rfl⟩, rfl⟩
      · simp only [Option.bind_eq_bind, Option.bind_eq_some_iff, Prod.exists, Option.some.injEq,
          Prod.mk.injEq] at h
        obtain ⟨items, rest', hitems, rfl, rfl⟩ := h
        exact ⟨more, items, rfl, .inr hitems, rfl⟩
    · rename_i more
      refine .inr (.inr (.inl ?_))
      split at h
      · rename_i hclosing
        cases h
        exact ⟨more, [], rfl, .inl ⟨hclosing, rfl⟩, rfl⟩
      · simp only [Option.bind_eq_bind, Option.bind_eq_some_iff, Prod.exists, Option.some.injEq,
          Prod.mk.injEq] at h
        obtain ⟨members, rest', hmembers, rfl, rfl⟩ := h
        exact ⟨more, members, rfl, .inr hmembers, rfl⟩
    · exact .inr (.inr (.inr h))
  · rintro (⟨more, t, rfl, hstring, rfl⟩ | ⟨more, items, rfl, ⟨hclosing, rfl⟩ | hitems, rfl⟩ |
      ⟨more, members, rfl, ⟨hclosing, rfl⟩ | hmembers, rfl⟩ | hatom)
    · exact value?_string fuel hstring
    · rw [value?, hclosing]
      rfl
    · rw [value?]
      split
      · rename_i hclosing
        rw [hclosing, items?_eq_none fun fuel => value?_closing fuel _] at hitems
        cases hitems
      · rw [hitems]
        rfl
    · rw [value?, hclosing]
      rfl
    · rw [value?]
      split
      · rename_i hclosing
        rw [hclosing, members?_eq_none (by simp)] at hmembers
        cases hmembers
      · rw [hmembers]
        rfl
    · cases cs with
      | nil => cases hatom
      | cons c cs =>
        by_cases hquote : c = '"'
        · subst hquote
          cases hatom
        by_cases hbracket : c = '['
        · subst hbracket
          cases hatom
        by_cases hbrace : c = '\x7b'
        · subst hbrace
          cases hatom
        rw [value?_atom fuel cs hquote hbracket hbrace, hatom]

/-- Items are a value and the items behind its comma, if there are any. -/
theorem items?_eq_some_iff {fuel : Nat} {cs rest : List Char} {items : List Json} :
    items? (fuel + 1) cs = some (items, rest) ↔
      ∃ j more, value? fuel cs = some (j, more) ∧
        (skipBlanks more = ']' :: rest ∧ items = [j] ∨
          ∃ next items', skipBlanks more = ',' :: next ∧
            items? fuel (skipBlanks next) = some (items', rest) ∧ items = j :: items') := by
  constructor
  · intro h
    simp only [items?, Option.bind_eq_bind, Option.bind_eq_some_iff, Prod.exists] at h
    obtain ⟨j, more, hvalue, h⟩ := h
    refine ⟨j, more, hvalue, ?_⟩
    split at h
    · rename_i hclosing
      cases h
      exact .inl ⟨hclosing, rfl⟩
    · rename_i next hcomma
      simp only [Option.bind_eq_some_iff, Prod.exists, Option.some.injEq, Prod.mk.injEq] at h
      obtain ⟨items', rest', hitems, rfl, rfl⟩ := h
      exact .inr ⟨next, items', hcomma, hitems, rfl⟩
    · cases h
  · rintro ⟨j, more, hvalue, ⟨hclosing, rfl⟩ | ⟨next, items', hcomma, hitems, rfl⟩⟩
    · simp only [items?, hvalue, hclosing, Option.bind_eq_bind, Option.bind_some]
    · simp only [items?, hvalue, hcomma, hitems, Option.bind_eq_bind, Option.bind_some]

/-- Members are a name with its value and the members behind its comma, if there are any. -/
theorem members?_eq_some_iff {fuel : Nat} {cs rest : List Char} {members : List (Text × Json)} :
    members? (fuel + 1) cs = some (members, rest) ↔
      ∃ start name afterName value j more, cs = '"' :: start ∧
        string? start = some (name, afterName) ∧ skipBlanks afterName = ':' :: value ∧
        value? fuel (skipBlanks value) = some (j, more) ∧
        (skipBlanks more = '\x7d' :: rest ∧ members = [(name, j)] ∨
          ∃ next members', skipBlanks more = ',' :: next ∧
            members? fuel (skipBlanks next) = some (members', rest) ∧
            members = (name, j) :: members') := by
  constructor
  · intro h
    rw [members?.eq_def] at h
    dsimp only at h
    split at h
    · rename_i start
      simp only [Option.bind_eq_bind, Option.bind_eq_some_iff, Prod.exists] at h
      obtain ⟨name, afterName, hname, h⟩ := h
      split at h
      · rename_i value hcolon
        simp only [Option.bind_eq_some_iff, Prod.exists] at h
        obtain ⟨j, more, hvalue, h⟩ := h
        refine ⟨start, name, afterName, value, j, more, rfl, hname, hcolon, hvalue, ?_⟩
        split at h
        · rename_i hclosing
          cases h
          exact .inl ⟨hclosing, rfl⟩
        · rename_i next hcomma
          simp only [Option.bind_eq_some_iff, Prod.exists, Option.some.injEq, Prod.mk.injEq] at h
          obtain ⟨members', rest', hmembers, rfl, rfl⟩ := h
          exact .inr ⟨next, members', hcomma, hmembers, rfl⟩
        · cases h
      · cases h
    · cases h
  · rintro ⟨start, name, afterName, value, j, more, rfl, hname, hcolon, hvalue,
      ⟨hclosing, rfl⟩ | ⟨next, members', hcomma, hmembers, rfl⟩⟩
    · simp only [members?, hname, hcolon, hvalue, hclosing, Option.bind_eq_bind, Option.bind_some]
    · simp only [members?, hname, hcolon, hvalue, hcomma, hmembers, Option.bind_eq_bind,
        Option.bind_some]

/-- The value of a whole text is the one that it starts with, when only blanks stand behind it. -/
theorem read?_eq_some_iff {cs : List Char} {j : Json} : read? cs = some j ↔
    ∃ rest, value? (cs.length + 1) (skipBlanks cs) = some (j, rest) ∧ skipBlanks rest = [] := by
  simp only [read?, Option.bind_eq_bind, Option.bind_eq_some_iff, Prod.exists]
  constructor
  · rintro ⟨j', rest, hvalue, h⟩
    split at h
    · rename_i hblank
      cases h
      exact ⟨rest, hvalue, List.isEmpty_iff.mp hblank⟩
    · cases h
  · rintro ⟨rest, hvalue, hblank⟩
    exact ⟨j, rest, hvalue, by rw [hblank]; rfl⟩

/-! ### Words and numbers -/

/-- The value is a word or a number. -/
def IsAtom : Json → Prop
  | text _ => False
  | array _ => False
  | object _ => False
  | _ => True

theorem isAtom_of_number? {cs rest : List Char} {j : Json} (h : number? cs = some (j, rest)) :
    j.IsAtom := by
  simp only [number?, Option.bind_eq_bind, Option.bind_eq_some_iff, Prod.exists] at h
  obtain ⟨whole, afterWhole, -, h⟩ := h
  split at h <;> cases h <;> trivial

theorem isAtom_of_mem_words {word : List Char × Json} (h : word ∈ words) : word.2.IsAtom := by
  have hall : ∀ w ∈ words, w.2.IsAtom := by
    simp only [words, List.forall_mem_cons, IsAtom, true_and]
    exact fun _ hmem => absurd hmem List.not_mem_nil
  exact hall word h

theorem isAtom_of_atom? {cs rest : List Char} {j : Json} (h : atom? cs = some (j, rest)) :
    j.IsAtom := by
  rw [atom?] at h
  split at h
  · rename_i found hword
    cases h
    obtain ⟨word, hmem, hafter⟩ := List.exists_of_findSome?_eq_some hword
    obtain ⟨more, -, heq⟩ := Option.map_eq_some_iff.mp hafter
    cases heq
    exact isAtom_of_mem_words hmem
  · exact isAtom_of_number? h

/-! ### Names -/

theorem IsAtom.distinctNames {j : Json} (h : j.IsAtom) : j.distinctNames := by
  cases j with
  | text t => exact absurd h id
  | array items => exact absurd h id
  | object members => exact absurd h id
  | _ => trivial

theorem membersDistinct_iff {members : List (Text × Json)} :
    membersDistinct members ↔ ∀ m ∈ members, m.2.distinctNames := by
  induction members with
  | nil => simp [membersDistinct]
  | cons m rest ih => rw [membersDistinct, ih, List.forall_mem_cons]

/-- The object of a list of members tells its names apart, whether or not the list does. -/
theorem distinctNames_objectOfList {members : List (Text × Json)} (h : membersDistinct members) :
    (objectOfList members).distinctNames := by
  have hfold : members.foldl (fun ms m => writeMember ms m.1 m.2) []
      = (OrderedMap.ofList members).entries := foldl_writeMember .empty members
  have hvalues : ∀ m ∈ (OrderedMap.ofList members).entries, m.2.distinctNames :=
    OrderedMap.forall_mem_ofList (membersDistinct_iff.mp h)
  rw [objectOfList, hfold, distinctNames]
  exact ⟨(OrderedMap.ofList members).nodup, membersDistinct_iff.mpr hvalues⟩

mutual

/-- The names of a value that is read are told apart. -/
theorem distinctNames_of_value? {fuel : Nat} {cs rest : List Char} {j : Json}
    (h : value? fuel cs = some (j, rest)) : j.distinctNames := by
  -- By the fuel, of which each of the three readers leaves one less to the next.
  match fuel with
  | 0 => cases h
  | fuel + 1 =>
    rcases value?_eq_some_iff.mp h with ⟨_, t, -, -, rfl⟩ | ⟨_, items, -, hitems, rfl⟩ |
      ⟨_, members, -, hmembers, rfl⟩ | hatom
    · trivial
    · rcases hitems with ⟨-, rfl⟩ | hitems
      · trivial
      · exact allDistinct_of_items? hitems
    · rcases hmembers with ⟨-, rfl⟩ | hmembers
      · exact distinctNames_objectOfList trivial
      · exact distinctNames_objectOfList (membersDistinct_of_members? hmembers)
    · exact (isAtom_of_atom? hatom).distinctNames

/-- The names in items that are read are told apart. -/
theorem allDistinct_of_items? {fuel : Nat} {cs rest : List Char} {items : List Json}
    (h : items? fuel cs = some (items, rest)) : allDistinct items := by
  match fuel with
  | 0 => cases h
  | fuel + 1 =>
    obtain ⟨j, more, hvalue, ⟨-, rfl⟩ | ⟨next, items', -, hnext, rfl⟩⟩ := items?_eq_some_iff.mp h
    · exact ⟨distinctNames_of_value? hvalue, trivial⟩
    · exact ⟨distinctNames_of_value? hvalue, allDistinct_of_items? hnext⟩

/-- The names in the values of members that are read are told apart. -/
theorem membersDistinct_of_members? {fuel : Nat} {cs rest : List Char}
    {members : List (Text × Json)} (h : members? fuel cs = some (members, rest)) :
    membersDistinct members := by
  match fuel with
  | 0 => cases h
  | fuel + 1 =>
    obtain ⟨_, name, _, value, j, more, -, -, -, hvalue,
      ⟨-, rfl⟩ | ⟨next, members', -, hnext, rfl⟩⟩ := members?_eq_some_iff.mp h
    · exact ⟨distinctNames_of_value? hvalue, trivial⟩
    · exact ⟨distinctNames_of_value? hvalue, membersDistinct_of_members? hnext⟩

end

/-- The names of the value of a text are told apart at every level. -/
theorem distinctNames_of_read? {cs : List Char} {j : Json} (h : read? cs = some j) :
    j.distinctNames := by
  obtain ⟨rest, hvalue, -⟩ := read?_eq_some_iff.mp h
  exact distinctNames_of_value? hvalue

mutual

/-- A value whose names are told apart can be read back. -/
theorem legible_of_distinctNames {j : Json} (h : j.distinctNames) : Legible .unicode j := by
  match j with
  | null => trivial
  | bool b => trivial
  | int n => trivial
  | float x => trivial
  | text t => exact unpaired_of_unescaped t
  | array items => exact itemsLegible_of_allDistinct h
  | object members => exact ⟨h.1, membersLegible_of_membersDistinct h.2⟩

theorem itemsLegible_of_allDistinct {items : List Json} (h : allDistinct items) :
    ItemsLegible .unicode items := by
  match items with
  | [] => trivial
  | j :: rest => exact ⟨legible_of_distinctNames h.1, itemsLegible_of_allDistinct h.2⟩

theorem membersLegible_of_membersDistinct {members : List (Text × Json)}
    (h : membersDistinct members) : MembersLegible .unicode members := by
  match members with
  | [] => trivial
  | (name, j) :: rest =>
    exact ⟨unpaired_of_unescaped name, legible_of_distinctNames h.1,
      membersLegible_of_membersDistinct h.2⟩

end

/-! ### Floating-point numbers -/

mutual

/-- The value holds no floating-point number. -/
def FloatFree : Json → Prop
  | float _ => False
  | array items => ItemsFloatFree items
  | object members => MembersFloatFree members
  | _ => True

/-- No item holds a floating-point number. -/
def ItemsFloatFree : List Json → Prop
  | [] => True
  | j :: rest => FloatFree j ∧ ItemsFloatFree rest

/-- No value of a member holds a floating-point number. -/
def MembersFloatFree : List (Text × Json) → Prop
  | [] => True
  | (_, j) :: rest => FloatFree j ∧ MembersFloatFree rest

end

mutual

/-- Without floating-point numbers, distinct names are all that reading back asks for. -/
theorem FloatFree.restorable {j : Json} (h : j.FloatFree) (hnames : j.distinctNames) :
    Restorable .unicode j := by
  match j with
  | null => trivial
  | bool b => trivial
  | int n => trivial
  | float x => exact absurd h id
  | text t => exact unpaired_of_unescaped t
  | array items => exact ItemsFloatFree.restorable h hnames
  | object members => exact ⟨hnames.1, MembersFloatFree.restorable h hnames.2⟩

theorem ItemsFloatFree.restorable {items : List Json} (h : ItemsFloatFree items)
    (hnames : allDistinct items) : ItemsRestorable .unicode items := by
  match items with
  | [] => trivial
  | j :: rest => exact ⟨h.1.restorable hnames.1, ItemsFloatFree.restorable h.2 hnames.2⟩

theorem MembersFloatFree.restorable {members : List (Text × Json)} (h : MembersFloatFree members)
    (hnames : membersDistinct members) : MembersRestorable .unicode members := by
  match members with
  | [] => trivial
  | (name, j) :: rest =>
    exact ⟨unpaired_of_unescaped name, h.1.restorable hnames.1,
      MembersFloatFree.restorable h.2 hnames.2⟩

end

/-- The value of a text is read back from what is written for it. -/
theorem restorable_of_read? {cs : List Char} {j : Json} (h : read? cs = some j)
    (hfloat : j.FloatFree) : Restorable .unicode j :=
  hfloat.restorable (distinctNames_of_read? h)

/-! ### Lengths of strings -/

theorem length_joinPairs_le (t : Text) : (joinPairs t).length ≤ t.length := by
  fun_induction joinPairs t with
  | case1 => exact Nat.le_refl _
  | case2 high low rest _ ih =>
    simp only [List.length_cons]
    omega
  | case3 high low rest _ ih =>
    simp only [List.length_cons] at ih ⊢
    omega
  | case4 c rest _ ih =>
    simp only [List.length_cons]
    omega

/-- Every code point of a string takes at least one character, and the quote takes another. -/
theorem length_of_units? {cs rest : List Char} {t : Text} (h : units? cs = some (t, rest)) :
    t.length + rest.length < cs.length := by
  fun_induction units? cs generalizing t rest with
  | case1 => cases h
  | case2 more =>
    cases h
    simp
  -- An escape has two characters or more for its code point.
  | case3 a b c d more ih =>
    simp only [Option.bind_eq_bind, Option.bind_eq_some_iff, Prod.exists, Option.some.injEq,
      Prod.mk.injEq] at h
    obtain ⟨u, -, t', rest', hmore, rfl, rfl⟩ := h
    have hlen := ih hmore
    simp only [List.length_cons]
    omega
  | case4 e more _ ih =>
    simp only [Option.bind_eq_bind, Option.bind_eq_some_iff, Prod.exists, Option.some.injEq,
      Prod.mk.injEq] at h
    obtain ⟨c, -, t', rest', hmore, rfl, rfl⟩ := h
    have hlen := ih hmore
    simp only [List.length_cons]
    omega
  | case5 => cases h
  | case6 c more _ _ _ _ ih =>
    simp only [Option.bind_eq_bind, Option.bind_eq_some_iff, Prod.exists, Option.some.injEq,
      Prod.mk.injEq] at h
    obtain ⟨t', rest', hmore, rfl, rfl⟩ := h
    have hlen := ih hmore
    simp only [List.length_cons]
    omega

theorem length_of_string? {cs rest : List Char} {t : Text} (h : string? cs = some (t, rest)) :
    t.length + rest.length < cs.length := by
  simp only [string?, Option.bind_eq_bind, Option.bind_eq_some_iff, Prod.exists, Option.some.injEq,
    Prod.mk.injEq] at h
  obtain ⟨u, rest', hunits, rfl, rfl⟩ := h
  have hjoin := length_joinPairs_le u
  have hlen := length_of_units? hunits
  omega

/-- A string is shorter than a text that denotes it. -/
theorem length_lt_of_read?_text {cs : List Char} {t : Text} (h : read? cs = some (text t)) :
    t.length < cs.length := by
  obtain ⟨rest, hvalue, -⟩ := read?_eq_some_iff.mp h
  rcases value?_eq_some_iff.mp hvalue with ⟨more, t', hquote, hstring, heq⟩ |
    ⟨more, items, -, -, heq⟩ | ⟨more, members, -, -, heq⟩ | hatom
  · cases heq
    -- The blanks in front only add to the text, and the quote is one character more.
    have hstart : (skipBlanks cs).length ≤ cs.length := (List.dropWhile_sublist _).length_le
    have hlen := length_of_string? hstring
    rw [hquote, List.length_cons] at hstart
    omega
  · cases heq
  · cases heq
  · exact absurd (isAtom_of_atom? hatom) id

end CloudEnvelope.Json
