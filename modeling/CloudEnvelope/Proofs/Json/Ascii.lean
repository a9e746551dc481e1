import CloudEnvelope.Proofs.Json.Value
import Mathlib.Tactic.Common

/-!
# JSON in ASCII

What is written in ASCII holds no lone surrogate, whatever the value holds
(`Json.loneFree_write_ascii`), because every code point past ASCII is escaped.  Reading back then
loses the difference between a code point and its two halves, which does not matter for a value that
can be written without escapes too: it holds no halves (`Json.Restorable.ascii`).
-/

namespace CloudEnvelope.Json

/-! ### Lone surrogates in what is written -/

theorem writeItems_eq_map (charset : Charset) (items : List Json) :
    writeItems charset items = items.map (write charset) := by
  induction items with
  | nil => rfl
  | cons j rest ih => rw [writeItems, ih, List.map_cons]

theorem writeMembers_eq_map (charset : Charset) (members : List (Text × Json)) :
    writeMembers charset members
      = members.map fun m => writeString charset m.1 ++ ":" ++ write charset m.2 := by
  induction members with
  | nil => rfl
  | cons m rest ih => rw [writeMembers, ih, List.map_cons]

theorem loneFree_writeString_iff {charset : Charset} {t : Text} :
    (writeString charset t).LoneFree ↔ (content charset t).LoneFree := by
  rw [writeString_eq, Text.loneFree_cons, Text.loneFree_append]
  simp [Text.LoneFree]

theorem loneFree_write_array_iff {charset : Charset} {items : List Json} :
    (write charset (array items)).LoneFree ↔ ∀ j ∈ items, (write charset j).LoneFree := by
  rw [write, writeItems_eq_map, Text.loneFree_append, Text.loneFree_append,
    Text.loneFree_joinWith_iff (Text.loneFree_ofString _), List.forall_mem_map]
  simp

theorem loneFree_write_object_iff {charset : Charset} {members : List (Text × Json)} :
    (write charset (object members)).LoneFree ↔
      ∀ m ∈ members, (content charset m.1).LoneFree ∧ (write charset m.2).LoneFree := by
  rw [write, writeMembers_eq_map, Text.loneFree_append, Text.loneFree_append,
    Text.loneFree_joinWith_iff (Text.loneFree_ofString _), List.forall_mem_map]
  simp [loneFree_writeString_iff]

/-! ### Everything has a form in ASCII -/

theorem loneFree_escapePoint (n : Nat) : (escapePoint n).LoneFree := by
  have hunit : ∀ n, (escapeUnit n).LoneFree := fun n => Text.loneFree_ofChars _
  rw [escapePoint]
  split
  · exact hunit n
  · exact Text.loneFree_append.mpr ⟨hunit _, hunit _⟩

theorem loneFree_writePoint_ascii (c : CodePoint) : (writePoint .ascii c).LoneFree := by
  rw [writePoint]
  cases hshort : shortEscape? c.toNat with
  | some t =>
    obtain ⟨e, d, rfl, -, -, -⟩ := shortEscape?_eq_some hshort
    exact Text.loneFree_ofChars _
  | none =>
    dsimp only
    split
    · exact loneFree_escapePoint c.toNat
    · rename_i hplain
      cases c with
      | scalar c => exact Text.loneFree_ofChars [c]
      | lone half =>
        -- A lone surrogate lies past ASCII, so it is escaped.
        have hge : 0x7E < (CodePoint.lone half).toNat := by
          simp only [CodePoint.toNat]
          omega
        simp [hge] at hplain

theorem loneFree_content_ascii (t : Text) : (content .ascii t).LoneFree := by
  intro half hmem
  obtain ⟨c, -, hc⟩ := List.mem_flatMap.mp hmem
  exact loneFree_writePoint_ascii c half hc

theorem loneFree_ofInt (n : Int) : (Text.ofInt n).LoneFree := by
  cases n with
  | ofNat n => exact Text.loneFree_ofChars _
  | negSucc n => exact Text.loneFree_ofChars ('-' :: Nat.toDigits 10 (n + 1))

theorem loneFree_writeFloat (x : Binary64) : (x.write .json).LoneFree := by
  have hsign : ∀ negative : Bool, Text.LoneFree (if negative then "-" else "" : String) := by
    intro negative
    exact Text.loneFree_ofString _
  cases x with
  | nan => exact Text.loneFree_ofString "NaN"
  | infinite negative =>
    exact Text.loneFree_append.mpr ⟨hsign negative, Text.loneFree_ofString "Infinity"⟩
  | finite negative x => exact Text.loneFree_append.mpr ⟨hsign negative, Text.loneFree_ofChars _⟩

mutual

/-- What is written in ASCII holds no lone surrogate, whatever the value holds. -/
theorem loneFree_write_ascii (j : Json) : (write .ascii j).LoneFree := by
  match j with
  | null => exact Text.loneFree_ofString "null"
  | bool false => exact Text.loneFree_ofString "false"
  | bool true => exact Text.loneFree_ofString "true"
  | int n => exact loneFree_ofInt n
  | float x => exact loneFree_writeFloat x
  | text t => exact loneFree_writeString_iff.mpr (loneFree_content_ascii t)
  | array items => exact loneFree_write_array_iff.mpr (loneFree_items_ascii items)
  | object members => exact loneFree_write_object_iff.mpr (loneFree_members_ascii members)

theorem loneFree_items_ascii (items : List Json) :
    ∀ j ∈ items, (write .ascii j).LoneFree := by
  match items with
  | [] => exact fun _ hmem => absurd hmem List.not_mem_nil
  | j :: rest =>
    exact List.forall_mem_cons.mpr ⟨loneFree_write_ascii j, loneFree_items_ascii rest⟩

theorem loneFree_members_ascii (members : List (Text × Json)) :
    ∀ m ∈ members, (content .ascii m.1).LoneFree ∧ (write .ascii m.2).LoneFree := by
  match members with
  | [] => exact fun _ hmem => absurd hmem List.not_mem_nil
  | (name, j) :: rest =>
    exact List.forall_mem_cons.mpr
      ⟨⟨loneFree_content_ascii name, loneFree_write_ascii j⟩, loneFree_members_ascii rest⟩

end

/-! ### Reading back -/

mutual

/-- A value that is read back from an unescaped text without lone surrogates is read back from ASCII
too. -/
theorem Restorable.ascii {j : Json} (h : Restorable .unicode j)
    (hlone : (write .unicode j).LoneFree) : Restorable .ascii j := by
  match j with
  | null => trivial
  | bool b => trivial
  | int n => trivial
  | float x => exact absurd h id
  | text t => exact fun _ => (loneFree_of_content (loneFree_writeString_iff.mp hlone)).unpaired
  | array items => exact ItemsRestorable.ascii h (loneFree_write_array_iff.mp hlone)
  | object members =>
    exact ⟨h.1, MembersRestorable.ascii h.2 (loneFree_write_object_iff.mp hlone)⟩

theorem ItemsRestorable.ascii {items : List Json} (h : ItemsRestorable .unicode items)
    (hlone : ∀ j ∈ items, (write .unicode j).LoneFree) : ItemsRestorable .ascii items := by
  match items with
  | [] => trivial
  | j :: rest =>
    rw [List.forall_mem_cons] at hlone
    exact ⟨h.1.ascii hlone.1, ItemsRestorable.ascii h.2 hlone.2⟩

theorem MembersRestorable.ascii {members : List (Text × Json)}
    (h : MembersRestorable .unicode members)
    (hlone : ∀ m ∈ members, (content .unicode m.1).LoneFree ∧ (write .unicode m.2).LoneFree) :
    MembersRestorable .ascii members := by
  match members with
  | [] => trivial
  | (name, j) :: rest =>
    rw [List.forall_mem_cons] at hlone
    exact ⟨fun _ => (loneFree_of_content hlone.1.1).unpaired, h.2.1.ascii hlone.1.2,
      MembersRestorable.ascii h.2.2 hlone.2⟩

end

/-- A value that can be written without escapes is read back from its form in ASCII. -/
theorem read?_write_ascii {j : Json} (h : Restorable .unicode j)
    (hlone : (write .unicode j).LoneFree) : read? (write .ascii j).chars = some j :=
  read?_write_restorable (h.ascii hlone) (loneFree_write_ascii j)

end CloudEnvelope.Json
