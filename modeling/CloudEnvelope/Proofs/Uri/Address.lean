import CloudEnvelope.Proofs.Text.Scalar
import CloudEnvelope.Proofs.Text.Split
import CloudEnvelope.Uri.Host
import Mathlib.Data.List.Basic
import Mathlib.Tactic.Common

/-!
# Written addresses are literals

An IPv6 address that was read from a URL is written with its longest run of zeros left out.  What is
written has the form of an address literal again (`Version6.isLiteral_write`): eight hextets, or
fewer around one double colon.
-/

namespace CloudEnvelope

namespace Address

variable {mark : Char} {part : List Char} {parts : List (List Char)}

/-! ### Parts between marks -/

theorem split_of_notMem (h : mark ∉ part) : split mark part = [part] := by
  induction part with
  | nil => rfl
  | cons c part ih =>
    obtain ⟨hc, hpart⟩ := not_or.mp (mt List.mem_cons.mpr h)
    rw [split, ih hpart]
    exact if_neg (Ne.symm hc)

theorem split_ne_nil (mark : Char) (cs : List Char) : split mark cs ≠ [] := by
  cases cs with
  | nil => exact List.cons_ne_nil _ _
  | cons c cs =>
    rw [split]
    split
    · exact List.cons_ne_nil _ _
    · split <;> exact List.cons_ne_nil _ _

/-- A part ends at the first mark. -/
theorem split_append (h : mark ∉ part) (rest : List Char) :
    split mark (part ++ mark :: rest) = part :: split mark rest := by
  induction part with
  | nil =>
    rw [List.nil_append, split]
    cases hsplit : split mark rest with
    | nil => exact absurd hsplit (split_ne_nil mark rest)
    | cons _ _ => exact if_pos rfl
  | cons c part ih =>
    obtain ⟨hc, hpart⟩ := not_or.mp (mt List.mem_cons.mpr h)
    rw [List.cons_append, split, ih hpart]
    exact if_neg (Ne.symm hc)

/-- Parts that are joined at marks are found again. -/
theorem split_intercalate (hne : parts ≠ []) (h : ∀ p ∈ parts, mark ∉ p) :
    split mark ([mark].intercalate parts) = parts := by
  induction parts with
  | nil => exact absurd rfl hne
  | cons p parts ih =>
    obtain ⟨hp, hparts⟩ := List.forall_mem_cons.mp h
    cases parts with
    | nil => rw [List.intercalate_singleton, split_of_notMem hp]
    | cons q parts =>
      rw [List.intercalate_cons_cons, List.append_assoc, List.singleton_append, split_append hp,
        ih (List.cons_ne_nil _ _) hparts]

/-- What is joined at marks holds marks and what its parts hold. -/
theorem mem_intercalate {c : Char} (h : c ∈ [mark].intercalate parts) :
    c = mark ∨ ∃ p ∈ parts, c ∈ p := by
  induction parts with
  | nil => cases h
  | cons p parts ih =>
    cases parts with
    | nil =>
      rw [List.intercalate_singleton] at h
      exact .inr ⟨p, List.mem_cons_self, h⟩
    | cons q parts =>
      rw [List.intercalate_cons_cons, List.append_assoc, List.mem_append, List.singleton_append,
        List.mem_cons] at h
      rcases h with h | rfl | h
      · exact .inr ⟨p, List.mem_cons_self, h⟩
      · exact .inl rfl
      · rcases ih h with rfl | ⟨r, hr, hc⟩
        · exact .inl rfl
        · exact .inr ⟨r, List.mem_cons_of_mem _ hr, hc⟩

/-! ### Hextets -/

theorem isHexDigit_of_mem_toDigits {n : Nat} {c : Char} (h : c ∈ Nat.toDigits 16 n) :
    isHexDigit c := by
  have hdigit : ∀ k < 16, isHexDigit k.digitChar := by decide
  induction n using Nat.strongRecOn with
  | ind n ih =>
    rcases Nat.lt_or_ge n 16 with hlt | hge
    · rw [Nat.toDigits_of_lt_base hlt, List.mem_singleton] at h
      exact h ▸ hdigit n hlt
    · rw [Nat.toDigits_of_base_le (by decide) hge, List.mem_append, List.mem_singleton] at h
      rcases h with h | rfl
      · exact ih (n / 16) (by omega) h
      · exact hdigit _ (Nat.mod_lt _ (by decide))

theorem isHextet_toDigits (p : Fin 0x10000) : isHextet (Nat.toDigits 16 p.val) := by
  have hlength : (Nat.toDigits 16 p.val).length ≤ 4 :=
    (Nat.length_toDigits_le_iff (by decide) (by decide)).mpr p.isLt
  have hpos : 0 < (Nat.toDigits 16 p.val).length := Nat.length_toDigits_pos
  simp only [isHextet, Bool.and_eq_true, List.all_eq_true, decide_eq_true_eq]
  exact ⟨⟨fun c hc => isHexDigit_of_mem_toDigits hc, hpos⟩, hlength⟩

theorem ne_nil_of_isHextet (h : isHextet part) : part ≠ [] := by
  rintro rfl
  cases h

theorem isHexDigit_of_isHextet (h : isHextet part) : ∀ c ∈ part, isHexDigit c := by
  simp only [isHextet, Bool.and_eq_true, List.all_eq_true] at h
  exact h.1.1

/-- A mark that is no hexadecimal digit is not among such digits. -/
theorem notMem_of_isHexDigit (h : ∀ c ∈ part, isHexDigit c) (hmark : isHexDigit mark = false) :
    mark ∉ part := by
  intro hmem
  rw [h mark hmem] at hmark
  cases hmark

/-! ### Addresses -/

/-- Hextets without a version 4 address among them are the parts of what is joined of them. -/
theorem parts?_intercalate (hlength : 3 ≤ parts.length)
    (h : ∀ p ∈ parts, ∀ c ∈ p, isHexDigit c) : parts? ([':'].intercalate parts) = some parts := by
  have hnotMem {mark : Char} (hmark : isHexDigit mark = false) : ∀ p ∈ parts, mark ∉ p :=
    fun p hp => notMem_of_isHexDigit (h p hp) hmark
  have hne : parts ≠ [] := by
    rintro rfl
    cases hlength
  rw [parts?, split_intercalate hne (hnotMem (by decide))]
  have hfinal : parts.getLast? = some (parts.getLast hne) := List.getLast?_eq_some_getLast hne
  have hpoint : (parts.getLast hne).contains '.' = false := by
    simpa using hnotMem (by decide) _ (List.getLast_mem hne)
  simp only [hfinal, hpoint]
  rw [if_neg (by omega)]
  rfl

/-- Eight hextets are an address. -/
theorem isVersion6_of_length (hlength : parts.length = 8) (h : ∀ p ∈ parts, isHextet p) :
    isVersion6 ([':'].intercalate parts) := by
  have hgaps : parts.tail.dropLast.filter List.isEmpty = [] := by
    rw [List.filter_eq_nil_iff]
    intro p hp
    have hmem : p ∈ parts := List.mem_of_mem_tail (List.dropLast_subset _ hp)
    simpa using ne_nil_of_isHextet (h p hmem)
  rw [isVersion6, parts?_intercalate (by omega) fun p hp => isHexDigit_of_isHextet (h p hp)]
  simp only [hgaps, hlength]
  simpa using h

/-- Hextets on one side of a double colon, or one empty part for none. -/
def IsSide (side : List (List Char)) : Prop :=
  side = [[]] ∨ side ≠ [] ∧ ∀ p ∈ side, isHextet p

namespace IsSide

variable {side : List (List Char)}

theorem ne_nil (h : IsSide side) : side ≠ [] := by
  rcases h with rfl | ⟨hne, -⟩
  · exact List.cons_ne_nil _ _
  · exact hne

theorem isHexDigit (h : IsSide side) : ∀ p ∈ side, ∀ c ∈ p, isHexDigit c := by
  rcases h with rfl | ⟨-, hside⟩
  · simp
  · exact fun p hp => isHexDigit_of_isHextet (hside p hp)

/-- All parts but one are not empty. -/
theorem isEmpty_eq_false (h : IsSide side) {parts : List (List Char)}
    (hparts : parts.Sublist side) (hlength : parts.length < side.length) :
    ∀ p ∈ parts, p.isEmpty = false := by
  intro p hp
  rcases h with rfl | ⟨-, hside⟩
  · rw [List.eq_nil_of_length_eq_zero (Nat.lt_one_iff.mp hlength)] at hp
    cases hp
  · rw [List.isEmpty_eq_false_iff]
    exact ne_nil_of_isHextet (hside p (hparts.subset hp))

theorem all_isHextet (h : IsSide side) : (if side == [[]] then [] else side).all isHextet := by
  split
  · rfl
  · rename_i hne
    rcases h with rfl | ⟨-, hside⟩
    · exact absurd rfl hne
    · exact List.all_eq_true.mpr hside

theorem length_le (side : List (List Char)) :
    (if side == [[]] then [] else side).length ≤ side.length := by
  split
  · exact Nat.zero_le _
  · exact Nat.le_refl _

end IsSide

section Gap

variable {front back : List (List Char)} (hfront : ∀ p ∈ front, p.isEmpty = false)

include hfront

/-- A part that is empty is the only one among others that are not. -/
theorem filter_isEmpty_append (hback : ∀ p ∈ back, p.isEmpty = false) :
    (front ++ [] :: back).filter List.isEmpty = [[]] := by
  rw [List.filter_append, List.filter_cons_of_pos rfl,
    List.filter_eq_nil_iff.mpr (by simpa using hfront),
    List.filter_eq_nil_iff.mpr (by simpa using hback), List.nil_append]

theorem findIdx_isEmpty_append : (front ++ [] :: back).findIdx List.isEmpty = front.length := by
  rw [List.findIdx_append, List.findIdx_eq_length_of_false hfront, List.findIdx_cons]
  simp

end Gap

/-- Fewer than eight parts around a double colon are an address. -/
theorem isVersion6_of_gap {front back : List (List Char)} (hfront : IsSide front)
    (hback : IsSide back) (hlength : front.length + back.length < 8) :
    isVersion6 ([':'].intercalate (front ++ [] :: back)) := by
  obtain ⟨first, more, rfl⟩ := List.exists_cons_of_ne_nil hfront.ne_nil
  have hback_pos := List.length_pos_iff.mpr hback.ne_nil
  have hinner : ((first :: more) ++ [] :: back).tail.dropLast = more ++ [] :: back.dropLast := by
    rw [List.cons_append, List.tail_cons, List.dropLast_append_of_ne_nil (List.cons_ne_nil _ _),
      List.dropLast_cons_of_ne_nil hback.ne_nil]
  have hmore : ∀ p ∈ more, p.isEmpty = false :=
    hfront.isEmpty_eq_false (List.sublist_cons_self _ _) (Nat.lt_succ_self _)
  have hrest : ∀ p ∈ back.dropLast, p.isEmpty = false :=
    hback.isEmpty_eq_false (List.dropLast_sublist _) (by rw [List.length_dropLast]; omega)
  have hparts : parts? ([':'].intercalate (first :: more ++ [] :: back))
      = some (first :: more ++ [] :: back) := by
    refine parts?_intercalate ?_ ?_
    · simp only [List.length_append, List.length_cons]
      omega
    · intro p hp
      rcases List.mem_append.mp hp with hp | hp
      · exact hfront.isHexDigit p hp
      · rcases List.mem_cons.mp hp with rfl | hp
        · exact List.forall_mem_nil _
        · exact hback.isHexDigit p hp
  have hplace : 1 + more.length = (first :: more).length := Nat.add_comm ..
  have hbefore : (first :: more ++ [] :: back).take (1 + more.length) = first :: more := by
    rw [hplace, List.take_left]
  have hafter : (first :: more ++ [] :: back).drop (1 + more.length + 1) = back := by
    rw [hplace, List.drop_length_add_append]
    rfl
  have hlengths := IsSide.length_le (first :: more)
  have hlengths' := IsSide.length_le back
  rw [isVersion6, hparts]
  simp only [hinner, filter_isEmpty_append hmore hrest, findIdx_isEmpty_append hmore, hbefore,
    hafter]
  rw [if_neg (by simp only [List.length_append, List.length_cons] at *; omega)]
  rw [List.length_singleton, if_neg Nat.one_ne_zero, if_pos rfl, hfront.all_isHextet,
    hback.all_isHextet]
  exact decide_eq_true (by omega)

end Address

namespace Version6

open Address

variable {c : Char}

/-! ### Writing -/

/-- A run of zeros ends no later than the numbers do. -/
theorem longestRun_le {start : Nat} {best : Nat × Nat} {ps : List (Fin 0x10000)}
    (h : best.1 + best.2 ≤ start + ps.length) :
    (longestRun start best ps).1 + (longestRun start best ps).2 ≤ start + ps.length := by
  induction ps generalizing start best with
  | nil => exact h
  | cons p ps ih =>
    have hrun : ((p :: ps).takeWhile (· == 0)).length ≤ (p :: ps).length :=
      (List.takeWhile_sublist _).length_le
    rw [longestRun, List.length_cons, ← Nat.add_assoc, Nat.add_right_comm]
    refine ih ?_
    rw [List.length_cons] at h hrun
    split
    · simp only
      omega
    · omega

theorem isSide_side {parts : List (List Char)} (h : ∀ p ∈ parts, isHextet p) :
    IsSide (side parts) := by
  rw [side]
  split
  · exact .inl rfl
  · rename_i hne
    exact .inr ⟨by simpa using hne, h⟩

theorem length_side (parts : List (List Char)) : (side parts).length ≤ max 1 parts.length := by
  rw [side]
  split
  · exact Nat.le_max_left _ _
  · exact Nat.le_max_right _ _

/-- Eight hextets are written, or fewer on two sides of a double colon. -/
theorem parts_cases (a : Version6) : (a.parts.length = 8 ∧ ∀ p ∈ a.parts, isHextet p) ∨
    ∃ front back, a.parts = front ++ [] :: back ∧ IsSide front ∧ IsSide back ∧
      front.length + back.length < 8 := by
  have hhextets : ∀ p ∈ a.pieces.map fun p => Nat.toDigits 16 p.val, isHextet p := by
    intro p hp
    obtain ⟨n, -, rfl⟩ := List.mem_map.mp hp
    exact isHextet_toDigits n
  have hlength : (a.pieces.map fun p => Nat.toDigits 16 p.val).length = 8 := by
    rw [List.length_map, a.length_eq]
  have hrun : (longestRun 0 (0, 0) a.pieces).1 + (longestRun 0 (0, 0) a.pieces).2 ≤ 8 := by
    rw [← a.length_eq, ← Nat.zero_add a.pieces.length]
    exact longestRun_le (Nat.zero_le _)
  rw [parts]
  generalize a.pieces.map (fun p => Nat.toDigits 16 p.val) = hextets at hhextets hlength
  generalize longestRun 0 (0, 0) a.pieces = run at hrun
  obtain ⟨start, length⟩ := run
  simp only at hrun ⊢
  split
  · exact .inl ⟨hlength, hhextets⟩
  · refine .inr ⟨_, _, rfl, isSide_side fun p hp => hhextets p (List.mem_of_mem_take hp),
      isSide_side fun p hp => hhextets p (List.mem_of_mem_drop hp), ?_⟩
    have hfront := length_side (hextets.take start)
    have hback := length_side (hextets.drop (start + length))
    rw [List.length_take] at hfront
    rw [List.length_drop] at hback
    omega

/-- What is written has the form of an address. -/
theorem isVersion6_write (a : Version6) : isVersion6 a.write := by
  rcases a.parts_cases with ⟨hlength, hhextets⟩ | ⟨front, back, hparts, hfront, hback, hlength⟩
  · exact isVersion6_of_length hlength hhextets
  · rw [write, hparts]
    exact isVersion6_of_gap hfront hback hlength

/-- Hexadecimal digits and colons are all that is written. -/
theorem mem_write {a : Version6} (h : c ∈ a.write) : c = ':' ∨ isHexDigit c := by
  rcases mem_intercalate h with rfl | ⟨p, hp, hc⟩
  · exact .inl rfl
  · refine .inr ?_
    rcases a.parts_cases with ⟨-, hhextets⟩ | ⟨front, back, hparts, hfront, hback, -⟩
    · exact isHexDigit_of_isHextet (hhextets p hp) c hc
    · rw [hparts, List.mem_append, List.mem_cons] at hp
      rcases hp with hp | rfl | hp
      · exact hfront.isHexDigit p hp c hc
      · cases hc
      · exact hback.isHexDigit p hp c hc

theorem notMem_write (a : Version6) {mark : Char} (hcolon : mark ≠ ':')
    (hhex : isHexDigit mark = false) : mark ∉ a.write := by
  intro hmem
  rw [(mem_write hmem).resolve_left hcolon] at hhex
  cases hhex

/-- What is written may stand between brackets. -/
theorem isLiteral_write (a : Version6) : isLiteral (Text.ofChars a.write) := by
  have hv : (Text.ofChars a.write).head? ≠ some (.scalar 'v') := fun hhead =>
    a.notMem_write (by decide) (by decide) (Text.mem_ofChars_iff.mp (List.mem_of_mem_head? hhead))
  have hpercent : CodePoint.scalar '%' ∉ Text.ofChars a.write := fun hmem =>
    a.notMem_write (by decide) (by decide) (Text.mem_ofChars_iff.mp hmem)
  have hsplit : (Text.ofChars a.write).splitFirst '%' = (Text.ofChars a.write, none) :=
    Text.splitFirst_of_notMem hpercent
  rw [isLiteral, if_neg hv, isVersion6WithZone, hsplit]
  simp only [Text.scalars?_ofChars, Option.any_some, Option.all_none, Bool.and_true]
  exact a.isVersion6_write

end Version6

end CloudEnvelope
