import CloudEnvelope.Proofs.Json.Numeral
import CloudEnvelope.Proofs.Json.Text
import CloudEnvelope.Proofs.OrderedMap

/-!
# JSON values read back

`Json.read?_write`: a value is read back from what is written for it, in either charset, as long as
the names of its objects are told apart and what is written holds no lone surrogate
(`Json.Legible`).  Its floating-point numbers are then the ones that their digits spell
(`Json.settled`); a value without any is read back as it is (`Json.read?_write_restorable`).  The
reader takes one step for every bracket and every item, so the length of what is written is enough
of them (`Json.value?_write`).
-/

namespace CloudEnvelope.Json

/-! ### Steps of the reader -/

/-- The text starts with a token, and not with a closing bracket. -/
def Begins (cs : List Char) : Prop := ∃ c rest, cs = c :: rest ∧ isBlank c = false ∧ c ≠ ']'

theorem skipBlanks_cons {c : Char} (h : isBlank c = false) (cs : List Char) :
    skipBlanks (c :: cs) = c :: cs :=
  List.dropWhile_cons_of_neg (by simp [h])

theorem Begins.skipBlanks {cs : List Char} (h : Begins cs) : skipBlanks cs = cs := by
  obtain ⟨c, rest, rfl, hblank, -⟩ := h
  exact skipBlanks_cons hblank rest

theorem value?_string {t : Text} {cs rest : List Char} (fuel : Nat)
    (h : string? cs = some (t, rest)) : value? (fuel + 1) ('"' :: cs) = some (text t, rest) := by
  rw [value?, h]
  rfl

theorem value?_emptyArray (fuel : Nat) (rest : List Char) :
    value? (fuel + 1) ('[' :: ']' :: rest) = some (array [], rest) := rfl

theorem value?_array {fuel : Nat} {items : List Json} {cs rest : List Char} (hbegins : Begins cs)
    (h : items? fuel cs = some (items, rest)) :
    value? (fuel + 1) ('[' :: cs) = some (array items, rest) := by
  obtain ⟨c, cs, rfl, hblank, hbracket⟩ := hbegins
  rw [value?, skipBlanks_cons hblank]
  split
  · rename_i heq
    exact absurd (List.cons.inj heq).1 hbracket
  · rw [h]
    rfl

theorem value?_emptyObject (fuel : Nat) (rest : List Char) :
    value? (fuel + 1) ('\x7b' :: '\x7d' :: rest) = some (object [], rest) := rfl

theorem value?_object {fuel : Nat} {members : List (Text × Json)} {cs rest : List Char}
    (h : members? fuel ('"' :: cs) = some (members, rest)) :
    value? (fuel + 1) ('\x7b' :: '"' :: cs) = some (objectOfList members, rest) := by
  rw [value?, skipBlanks_cons rfl]
  split
  · rename_i heq
    exact absurd (List.cons.inj heq).1 (by decide)
  · rw [h]
    rfl

theorem value?_atom {c : Char} (fuel : Nat) (cs : List Char) (hquote : c ≠ '"') (hbracket : c ≠ '[')
    (hbrace : c ≠ '\x7b') : value? (fuel + 1) (c :: cs) = atom? (c :: cs) := by
  rw [value?]
  · exact fun rest heq => hquote (List.cons.inj heq).1
  · exact fun rest heq => hbracket (List.cons.inj heq).1
  · exact fun rest heq => hbrace (List.cons.inj heq).1

theorem items?_last {fuel : Nat} {j : Json} {cs rest : List Char}
    (h : value? fuel cs = some (j, ']' :: rest)) :
    items? (fuel + 1) cs = some ([j], rest) := by
  rw [items?, h]
  rfl

theorem items?_more {fuel : Nat} {j : Json} {items : List Json} {cs more rest : List Char}
    (h : value? fuel cs = some (j, ',' :: more)) (hbegins : Begins more)
    (hmore : items? fuel more = some (items, rest)) :
    items? (fuel + 1) cs = some (j :: items, rest) := by
  rw [items?, h]
  simp only [Option.bind_eq_bind, Option.bind_some, skipBlanks_cons (c := ',') rfl,
    hbegins.skipBlanks, hmore]

theorem members?_last {fuel : Nat} {name : Text} {j : Json} {cs value rest : List Char}
    (hname : string? cs = some (name, ':' :: value)) (hbegins : Begins value)
    (h : value? fuel value = some (j, '\x7d' :: rest)) :
    members? (fuel + 1) ('"' :: cs) = some ([(name, j)], rest) := by
  rw [members?, hname]
  simp only [Option.bind_eq_bind, Option.bind_some, skipBlanks_cons (c := ':') rfl,
    hbegins.skipBlanks, h, skipBlanks_cons (c := '\x7d') rfl]

theorem members?_more {fuel : Nat} {name : Text} {j : Json} {members : List (Text × Json)}
    {cs value more rest : List Char} (hname : string? cs = some (name, ':' :: value))
    (hbegins : Begins value) (h : value? fuel value = some (j, ',' :: more))
    (hbegins' : Begins more) (hmore : members? fuel more = some (members, rest)) :
    members? (fuel + 1) ('"' :: cs) = some ((name, j) :: members, rest) := by
  rw [members?, hname]
  simp only [Option.bind_eq_bind, Option.bind_some, skipBlanks_cons (c := ':') rfl,
    hbegins.skipBlanks, h, skipBlanks_cons (c := ',') rfl, hbegins'.skipBlanks, hmore]

/-! ### Members -/

theorem writeMember_eq_write (members : List (Text × Json)) (name : Text) (j : Json) :
    writeMember members name j = OrderedMap.write name j members := by
  induction members with
  | nil => rfl
  | cons m rest ih => rw [writeMember, OrderedMap.write, ih]

theorem foldl_writeMember (m : OrderedMap Text Json) (members : List (Text × Json)) :
    members.foldl (fun ms x => writeMember ms x.1 x.2) m.entries
      = (m.insertAll members).entries := by
  induction members generalizing m with
  | nil => rfl
  | cons x rest ih =>
    rw [List.foldl_cons, writeMember_eq_write]
    exact ih (m.insert x.1 x.2)

/-- An object whose names are told apart has the members that it is made of. -/
theorem objectOfList_of_nodup {members : List (Text × Json)} (h : (members.map (·.1)).Nodup) :
    objectOfList members = object members := by
  have hfold := foldl_writeMember .empty members
  exact congrArg object (hfold.trans (OrderedMap.entries_ofList h))

/-! ### What is read back -/

mutual

/-- A value that is read back as it is: it has no floating-point numbers, the names of each object
are told apart and, where halves of surrogate pairs are escaped, none stand together. -/
def Restorable (charset : Charset) : Json → Prop
  | float _ => False
  | text t => charset = .ascii → t.Unpaired
  | array items => ItemsRestorable charset items
  | object members => (members.map (·.1)).Nodup ∧ MembersRestorable charset members
  | _ => True

/-- Every item is read back as it is. -/
def ItemsRestorable (charset : Charset) : List Json → Prop
  | [] => True
  | j :: rest => Restorable charset j ∧ ItemsRestorable charset rest

/-- Every member is read back as it is. -/
def MembersRestorable (charset : Charset) : List (Text × Json) → Prop
  | [] => True
  | (name, j) :: rest =>
    (charset = .ascii → name.Unpaired) ∧ Restorable charset j ∧ MembersRestorable charset rest

end

mutual

/-- A value that can be read back: the names of each object are told apart and, where halves of
surrogate pairs are escaped, none stand together. -/
def Legible (charset : Charset) : Json → Prop
  | text t => charset = .ascii → t.Unpaired
  | array items => ItemsLegible charset items
  | object members => (members.map (·.1)).Nodup ∧ MembersLegible charset members
  | _ => True

/-- Every item can be read back. -/
def ItemsLegible (charset : Charset) : List Json → Prop
  | [] => True
  | j :: rest => Legible charset j ∧ ItemsLegible charset rest

/-- Every member can be read back. -/
def MembersLegible (charset : Charset) : List (Text × Json) → Prop
  | [] => True
  | (name, j) :: rest =>
    (charset = .ascii → name.Unpaired) ∧ Legible charset j ∧ MembersLegible charset rest

end

/-- The value of a word or a number. -/
def spelled (cs : List Char) : Json := (atom? cs).elim null (·.1)

mutual

/-- The value as it is read back: in place of each floating-point number stands the one that is
written for it. -/
def settled : Json → Json
  | float x => spelled (x.write .json).chars
  | array items => array (settledItems items)
  | object members => object (settledMembers members)
  | j => j

/-- Every item as it is read back. -/
def settledItems : List Json → List Json
  | [] => []
  | j :: rest => settled j :: settledItems rest

/-- Every member as it is read back. -/
def settledMembers : List (Text × Json) → List (Text × Json)
  | [] => []
  | (name, j) :: rest => (name, settled j) :: settledMembers rest

end

theorem settledMembers_eq_map (members : List (Text × Json)) :
    settledMembers members = members.map fun m => (m.1, settled m.2) := by
  induction members with
  | nil => rfl
  | cons m rest ih => rw [settledMembers, ih, List.map_cons]

/-- The names of members stay as they are. -/
theorem map_fst_settledMembers (members : List (Text × Json)) :
    (settledMembers members).map (·.1) = members.map (·.1) := by
  rw [settledMembers_eq_map, List.map_map]
  rfl

mutual

theorem Restorable.legible {charset : Charset} {j : Json} (h : Restorable charset j) :
    Legible charset j := by
  match j with
  | null => trivial
  | bool b => trivial
  | int n => trivial
  | float x => trivial
  | text t => exact h
  | array items => exact ItemsRestorable.legible h
  | object members => exact ⟨h.1, MembersRestorable.legible h.2⟩

theorem ItemsRestorable.legible {charset : Charset} {items : List Json}
    (h : ItemsRestorable charset items) : ItemsLegible charset items := by
  match items with
  | [] => trivial
  | j :: rest => exact ⟨h.1.legible, ItemsRestorable.legible h.2⟩

theorem MembersRestorable.legible {charset : Charset} {members : List (Text × Json)}
    (h : MembersRestorable charset members) : MembersLegible charset members := by
  match members with
  | [] => trivial
  | (name, j) :: rest => exact ⟨h.1, h.2.1.legible, MembersRestorable.legible h.2.2⟩

end

mutual

/-- A value that is read back as it is has nothing to be settled. -/
theorem Restorable.settled_eq {charset : Charset} {j : Json} (h : Restorable charset j) :
    settled j = j := by
  match j with
  | null => rfl
  | bool b => rfl
  | int n => rfl
  | float x => exact absurd h id
  | text t => rfl
  | array items => rw [settled, ItemsRestorable.settled_eq h]
  | object members => rw [settled, MembersRestorable.settled_eq h.2]

theorem ItemsRestorable.settled_eq {charset : Charset} {items : List Json}
    (h : ItemsRestorable charset items) : settledItems items = items := by
  match items with
  | [] => rfl
  | j :: rest => rw [settledItems, h.1.settled_eq, ItemsRestorable.settled_eq h.2]

theorem MembersRestorable.settled_eq {charset : Charset} {members : List (Text × Json)}
    (h : MembersRestorable charset members) : settledMembers members = members := by
  match members with
  | [] => rfl
  | (name, j) :: rest => rw [settledMembers, h.2.1.settled_eq, MembersRestorable.settled_eq h.2.2]

end

theorem membersRestorable_iff {charset : Charset} {members : List (Text × Json)} :
    MembersRestorable charset members ↔
      ∀ m ∈ members, (charset = .ascii → m.1.Unpaired) ∧ Restorable charset m.2 := by
  induction members with
  | nil => simp [MembersRestorable]
  | cons m rest ih => rw [MembersRestorable, ih, List.forall_mem_cons, and_assoc]

/-- Nothing is asked of a text that is written without escapes. -/
theorem unpaired_of_unescaped (t : Text) (h : Charset.unicode = .ascii) : t.Unpaired := by
  cases h

/-- Items with their commas. -/
def joinedItems (charset : Charset) (items : List Json) : Text :=
  Text.joinWith "," (writeItems charset items)

/-- Members with their commas. -/
def joinedMembers (charset : Charset) (members : List (Text × Json)) : Text :=
  Text.joinWith "," (writeMembers charset members)

theorem write_array (charset : Charset) (items : List Json) :
    write charset (array items) = .scalar '[' :: (joinedItems charset items ++ [.scalar ']']) := by
  simp [write, joinedItems, Text.ofString]

theorem write_object (charset : Charset) (members : List (Text × Json)) :
    write charset (object members)
      = .scalar '\x7b' :: (joinedMembers charset members ++ [.scalar '\x7d']) := by
  simp [write, joinedMembers, Text.ofString]

theorem joinedItems_cons (charset : Charset) (j k : Json) (items : List Json) :
    joinedItems charset (j :: k :: items)
      = write charset j ++ .scalar ',' :: joinedItems charset (k :: items) := by
  simp [joinedItems, writeItems, Text.joinWith, Text.ofString]

theorem joinedMembers_one (charset : Charset) (name : Text) (j : Json) :
    joinedMembers charset [(name, j)] = .scalar '"' ::
      (content charset name ++ .scalar '"' :: .scalar ':' :: write charset j) := by
  simp [joinedMembers, writeMembers, Text.joinWith, Text.ofString, writeString_eq]

theorem joinedMembers_cons (charset : Charset) (name : Text) (j : Json) (m : Text × Json)
    (members : List (Text × Json)) :
    joinedMembers charset ((name, j) :: m :: members) = .scalar '"' ::
      (content charset name ++ .scalar '"' :: .scalar ':' ::
        (write charset j ++ .scalar ',' :: joinedMembers charset (m :: members))) := by
  simp [joinedMembers, writeMembers, Text.joinWith, Text.ofString, writeString_eq]

/-- A value starts with a token, and not with a closing bracket. -/
theorem begins_write (charset : Charset) (j : Json) (rest : List Char) :
    Begins ((write charset j).chars ++ rest) := by
  cases j with
  | null => exact ⟨'n', _, by simp [write]; rfl, rfl, by decide⟩
  | bool b =>
    cases b with
    | false => exact ⟨'f', _, by simp [write]; rfl, rfl, by decide⟩
    | true => exact ⟨'t', _, by simp [write]; rfl, rfl, by decide⟩
  | int n =>
    obtain ⟨c, cs, hcs, hc⟩ := exists_ofInt n
    refine ⟨c, cs ++ rest, by rw [write, hcs, List.cons_append], ?_,
      ne_of_startsInteger hc rfl (by decide)⟩
    simp only [isBlank, Bool.or_eq_false_iff, beq_eq_false_iff_ne]
    exact ⟨⟨⟨ne_of_startsInteger hc rfl (by decide), ne_of_startsInteger hc rfl (by decide)⟩,
      ne_of_startsInteger hc rfl (by decide)⟩, ne_of_startsInteger hc rfl (by decide)⟩
  | float x =>
    obtain ⟨c, cs, hcs, hc⟩ := exists_writeFloat x
    refine ⟨c, cs ++ rest, by rw [write, hcs, List.cons_append], ?_,
      ne_of_startsFloat hc rfl (by decide)⟩
    simp only [isBlank, Bool.or_eq_false_iff, beq_eq_false_iff_ne]
    exact ⟨⟨⟨ne_of_startsFloat hc rfl (by decide), ne_of_startsFloat hc rfl (by decide)⟩,
      ne_of_startsFloat hc rfl (by decide)⟩, ne_of_startsFloat hc rfl (by decide)⟩
  | text t => exact ⟨'"', _, rfl, rfl, by decide⟩
  | array items =>
    rw [write_array]
    exact ⟨'[', _, rfl, rfl, by decide⟩
  | object members =>
    rw [write_object]
    exact ⟨'\x7b', _, rfl, rfl, by decide⟩

theorem begins_joinedItems (charset : Charset) (j : Json) (items : List Json) (rest : List Char) :
    Begins ((joinedItems charset (j :: items)).chars ++ rest) := by
  cases items with
  | nil => exact begins_write charset j rest
  | cons k items =>
    rw [joinedItems_cons, Text.chars_append, List.append_assoc]
    exact begins_write charset j _

theorem begins_joinedMembers (charset : Charset) (m : Text × Json) (members : List (Text × Json))
    (rest : List Char) :
    ∃ cs, (joinedMembers charset (m :: members)).chars ++ rest = '"' :: cs := by
  cases members with
  | nil => exact ⟨_, by rw [joinedMembers_one]; rfl⟩
  | cons m' members => exact ⟨_, by rw [joinedMembers_cons]; rfl⟩

/-! ### Reading back -/

theorem exists_fuel {n fuel : Nat} (h : n + 1 ≤ fuel) : ∃ f, fuel = f + 1 ∧ n ≤ f :=
  ⟨fuel - 1, by omega, by omega⟩

/-- Words and numbers need one step. -/
theorem value?_write_atom {charset : Charset} {j k : Json} {c : Char} {cs rest : List Char}
    {fuel : Nat} (hchars : (write charset j).chars = c :: cs) (hquote : c ≠ '"')
    (hbracket : c ≠ '[') (hbrace : c ≠ '\x7b') (hatom : atom? (c :: cs ++ rest) = some (k, rest))
    (hfuel : (write charset j).chars.length ≤ fuel) :
    value? fuel ((write charset j).chars ++ rest) = some (k, rest) := by
  rw [hchars] at hfuel ⊢
  obtain ⟨fuel, rfl, -⟩ := exists_fuel hfuel
  rw [List.cons_append] at hatom ⊢
  rw [value?_atom fuel _ hquote hbracket hbrace, hatom]

theorem value?_write_null {charset : Charset} {fuel : Nat}
    (hfuel : (write charset null).chars.length ≤ fuel) (rest : List Char) :
    value? fuel ((write charset null).chars ++ rest) = some (null, rest) :=
  value?_write_atom (c := 'n') (by simp [write]; rfl) (by decide) (by decide) (by decide) rfl hfuel

theorem value?_write_bool {charset : Charset} {fuel : Nat} (b : Bool)
    (hfuel : (write charset (bool b)).chars.length ≤ fuel) (rest : List Char) :
    value? fuel ((write charset (bool b)).chars ++ rest) = some (bool b, rest) := by
  cases b with
  | false =>
    exact value?_write_atom (c := 'f') (by simp [write]; rfl) (by decide) (by decide) (by decide)
      rfl hfuel
  | true =>
    exact value?_write_atom (c := 't') (by simp [write]; rfl) (by decide) (by decide) (by decide)
      rfl hfuel

theorem value?_write_int {charset : Charset} {fuel : Nat} (n : Int)
    (hfuel : (write charset (int n)).chars.length ≤ fuel) {rest : List Char} (hrest : Ends rest) :
    value? fuel ((write charset (int n)).chars ++ rest) = some (int n, rest) := by
  obtain ⟨c, cs, hcs, hc⟩ := exists_ofInt n
  have hatom := atom?_ofInt n hrest
  rw [hcs] at hatom
  exact value?_write_atom hcs (ne_of_startsInteger hc rfl (by decide))
    (ne_of_startsInteger hc rfl (by decide)) (ne_of_startsInteger hc rfl (by decide)) hatom hfuel

/-- A floating-point number is read as the one that is written for it, whatever ends it. -/
theorem atom?_writeFloat (x : Binary64) {rest : List Char} (hrest : Ends rest) :
    atom? ((x.write .json).chars ++ rest) = some (settled (float x), rest) := by
  obtain ⟨j, hj⟩ := exists_atom?_float x
  have halone := hj [] (by simp [Ends])
  rw [List.append_nil] at halone
  have hsettled : settled (float x) = j := by
    rw [settled, spelled, halone]
    rfl
  rw [hsettled]
  exact hj rest hrest

theorem value?_write_float {charset : Charset} {fuel : Nat} (x : Binary64)
    (hfuel : (write charset (float x)).chars.length ≤ fuel) {rest : List Char}
    (hrest : Ends rest) :
    value? fuel ((write charset (float x)).chars ++ rest) = some (settled (float x), rest) := by
  obtain ⟨c, cs, hcs, hc⟩ := exists_writeFloat x
  have hatom := atom?_writeFloat x hrest
  rw [hcs] at hatom
  exact value?_write_atom hcs (ne_of_startsFloat hc rfl (by decide))
    (ne_of_startsFloat hc rfl (by decide)) (ne_of_startsFloat hc rfl (by decide)) hatom hfuel

theorem value?_write_text {charset : Charset} {fuel : Nat} {t : Text}
    (hpairs : charset = .ascii → t.Unpaired) (hlone : (write charset (text t)).LoneFree)
    (hfuel : (write charset (text t)).chars.length ≤ fuel) (rest : List Char) :
    value? fuel ((write charset (text t)).chars ++ rest) = some (text t, rest) := by
  rw [write, writeString_eq] at hlone hfuel ⊢
  rw [Text.loneFree_cons, Text.loneFree_append] at hlone
  rw [Text.chars_cons, Text.chars_append] at hfuel ⊢
  obtain ⟨fuel, rfl, -⟩ := exists_fuel hfuel
  rw [List.cons_append, List.append_assoc]
  exact value?_string fuel (string?_content hlone.2.1 hpairs rest)

mutual

/-- A value is read back when there are as many steps as characters. -/
theorem value?_write {charset : Charset} (j : Json) (h : Legible charset j)
    (hlone : (write charset j).LoneFree) {fuel : Nat}
    (hfuel : (write charset j).chars.length ≤ fuel) {rest : List Char} (hrest : Ends rest) :
    value? fuel ((write charset j).chars ++ rest) = some (settled j, rest) := by
  match j with
  | null => exact value?_write_null hfuel rest
  | bool b => exact value?_write_bool b hfuel rest
  | int n => exact value?_write_int n hfuel hrest
  | float x => exact value?_write_float x hfuel hrest
  | text t => exact value?_write_text h hlone hfuel rest
  | array [] =>
    obtain ⟨fuel, rfl, -⟩ := exists_fuel hfuel
    exact value?_emptyArray fuel rest
  | array (j :: items) =>
    rw [write_array] at hlone hfuel ⊢
    rw [Text.loneFree_cons, Text.loneFree_append] at hlone
    rw [Text.chars_cons, Text.chars_append] at hfuel ⊢
    obtain ⟨fuel, rfl, hlen⟩ := exists_fuel hfuel
    rw [List.length_append] at hlen
    have hitems := items?_write (j :: items) (List.cons_ne_nil _ _) h hlone.2.1 hlen rest
    rw [List.cons_append, List.append_assoc]
    exact value?_array (begins_joinedItems charset j items _) hitems
  | object [] =>
    obtain ⟨fuel, rfl, -⟩ := exists_fuel hfuel
    exact value?_emptyObject fuel rest
  | object ((name, j) :: members) =>
    rw [write_object] at hlone hfuel ⊢
    rw [Text.loneFree_cons, Text.loneFree_append] at hlone
    rw [Text.chars_cons, Text.chars_append] at hfuel ⊢
    obtain ⟨fuel, rfl, hlen⟩ := exists_fuel hfuel
    rw [List.length_append] at hlen
    have hmembers := members?_write ((name, j) :: members) (List.cons_ne_nil _ _) h.2 hlone.2.1 hlen
      rest
    -- The reader of objects wants to see the quote of the first name.
    obtain ⟨cs, hcs⟩ := begins_joinedMembers charset (name, j) members ('\x7d' :: rest)
    rw [hcs] at hmembers
    rw [List.cons_append, List.append_assoc]
    show value? (fuel + 1) ('\x7b' :: ((joinedMembers charset ((name, j) :: members)).chars
      ++ '\x7d' :: rest)) = _
    have hnames : ((settledMembers ((name, j) :: members)).map (·.1)).Nodup := by
      rw [map_fst_settledMembers]
      exact h.1
    rw [hcs, value?_object hmembers, objectOfList_of_nodup hnames, settled]

/-- Items are read back up to the closing bracket. -/
theorem items?_write {charset : Charset} (items : List Json) (hne : items ≠ [])
    (h : ItemsLegible charset items) (hlone : (joinedItems charset items).LoneFree)
    {fuel : Nat} (hfuel : (joinedItems charset items).chars.length + 1 ≤ fuel)
    (rest : List Char) :
    items? fuel ((joinedItems charset items).chars ++ ']' :: rest)
      = some (settledItems items, rest) := by
  -- One step goes to the list itself; the bracket or comma behind each item pays for it.
  obtain ⟨fuel, rfl, hlen⟩ := exists_fuel hfuel
  match items with
  | [] => exact absurd rfl hne
  | [j] => exact items?_last (value?_write j h.1 hlone hlen (by simp [Ends]))
  | j :: k :: items =>
    rw [joinedItems_cons] at hlone hlen ⊢
    rw [Text.loneFree_append, Text.loneFree_cons] at hlone
    rw [Text.chars_append, Text.chars_cons] at hlen ⊢
    rw [List.length_append, List.length_cons] at hlen
    rw [List.append_assoc, List.cons_append]
    exact items?_more (value?_write j h.1 hlone.1 (by omega) (by simp [Ends]))
      (begins_joinedItems charset k items _)
      (items?_write (k :: items) (List.cons_ne_nil _ _) h.2 hlone.2.2 (by omega) rest)

/-- Members are read back up to the closing brace. -/
theorem members?_write {charset : Charset} (members : List (Text × Json)) (hne : members ≠ [])
    (h : MembersLegible charset members) (hlone : (joinedMembers charset members).LoneFree)
    {fuel : Nat} (hfuel : (joinedMembers charset members).chars.length + 1 ≤ fuel)
    (rest : List Char) :
    members? fuel ((joinedMembers charset members).chars ++ '\x7d' :: rest)
      = some (settledMembers members, rest) := by
  obtain ⟨fuel, rfl, hlen⟩ := exists_fuel hfuel
  match members with
  | [] => exact absurd rfl hne
  | [(name, j)] =>
    rw [joinedMembers_one] at hlone hlen ⊢
    simp only [Text.loneFree_cons, Text.loneFree_append] at hlone
    simp only [Text.chars_cons, Text.chars_append, List.length_cons, List.length_append] at hlen
    simp only [Text.chars_cons, Text.chars_append, List.cons_append, List.append_assoc]
    exact members?_last (string?_content hlone.2.1 h.1 _) (begins_write charset j _)
      (value?_write j h.2.1 hlone.2.2.2.2 (by omega) (by simp [Ends]))
  | (name, j) :: m :: members =>
    rw [joinedMembers_cons] at hlone hlen ⊢
    simp only [Text.loneFree_cons, Text.loneFree_append] at hlone
    simp only [Text.chars_cons, Text.chars_append, List.length_cons, List.length_append] at hlen
    simp only [Text.chars_cons, Text.chars_append, List.cons_append, List.append_assoc]
    obtain ⟨cs, hcs⟩ := begins_joinedMembers charset m members ('\x7d' :: rest)
    refine members?_more (string?_content hlone.2.1 h.1 _) (begins_write charset j _)
      (value?_write j h.2.1 hlone.2.2.2.2.1 (by omega) (by simp [Ends])) ?_
      (members?_write (m :: members) (List.cons_ne_nil _ _) h.2.2 hlone.2.2.2.2.2.2 (by omega) rest)
    rw [hcs]
    exact ⟨'"', cs, rfl, rfl, by decide⟩

end

/-- A value is read back from what is written for it, with its numbers as they are written. -/
theorem read?_write {charset : Charset} {j : Json} (h : Legible charset j)
    (hlone : (write charset j).LoneFree) : read? (write charset j).chars = some (settled j) := by
  have hbegins := begins_write charset j []
  have hvalue : value? ((write charset j).chars.length + 1) ((write charset j).chars ++ []) = _ :=
    value?_write j h hlone (Nat.le_succ _) (by simp [Ends])
  rw [List.append_nil] at hbegins hvalue
  rw [read?, hbegins.skipBlanks, hvalue]
  rfl

/-- A value without floating-point numbers is read back as it is. -/
theorem read?_write_restorable {charset : Charset} {j : Json} (h : Restorable charset j)
    (hlone : (write charset j).LoneFree) : read? (write charset j).chars = some j := by
  rw [read?_write h.legible hlone, h.settled_eq]

end CloudEnvelope.Json
