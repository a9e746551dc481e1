import CloudEnvelope.Text.Blank
import CloudEnvelope.Text.Lowercase
import CloudEnvelope.Proofs.Text.CodePointSet
import CloudEnvelope.Proofs.Text.Utf8
import Mathlib.Data.List.DropRight
import Mathlib.Data.List.Forall2

/-!
# Lower case and trimming

Lower case is settled: it is the lower-case form of itself (`Text.lowercase_lowercase`), since no
mapping moves a code point to one that is moved again (`Lowercase.lands_runs`).  It keeps the text
trimmed, and it does not depend on the case of the ASCII letters
(`Text.lowercase_map_asciiLower`).
-/

namespace CloudEnvelope

namespace Text

variable {t before after : Text}

/-! ### Trimming -/

/-- Neither end of the text is blank. -/
structure Trimmed (t : Text) : Prop where
  head : ∀ c ∈ t.head?, c.isBlank = false
  last : ∀ c ∈ t.getLast?, c.isBlank = false

theorem trim_eq_rdropWhile (t : Text) :
    t.trim = (t.dropWhile CodePoint.isBlank).rdropWhile CodePoint.isBlank := rfl

theorem mem_of_mem_trim {c : CodePoint} (h : c ∈ t.trim) : c ∈ t :=
  (List.dropWhile_suffix _).subset ((List.rdropWhile_prefix _ _).subset h)

theorem trimmed_trim (t : Text) : t.trim.Trimmed := by
  rw [trim_eq_rdropWhile]
  constructor
  · intro c hc
    have hhead := List.head?_dropWhile_not CodePoint.isBlank t
    obtain ⟨rest, hrest⟩ := List.rdropWhile_prefix CodePoint.isBlank (t.dropWhile CodePoint.isBlank)
    rw [← hrest, List.head?_append, Option.mem_def.mp hc] at hhead
    exact hhead
  · intro c hc
    obtain ⟨hne, rfl⟩ := List.mem_getLast?_eq_getLast hc
    exact eq_false_of_ne_true (List.rdropWhile_last_not _ _ hne)

theorem Trimmed.trim_eq (h : t.Trimmed) : t.trim = t := by
  have hstart : t.dropWhile CodePoint.isBlank = t := by
    rw [List.dropWhile_eq_self_iff]
    intro hlength
    rw [h.head t[0] (List.head?_eq_getElem? .. ▸ List.getElem?_eq_getElem hlength)]
    exact Bool.false_ne_true
  rw [trim_eq_rdropWhile, hstart, List.rdropWhile_eq_self_iff]
  intro hne
  rw [h.last _ (List.getLast?_eq_some_getLast hne)]
  exact Bool.false_ne_true

/-- Blanks around a text are trimmed. -/
theorem trim_append (hbefore : ∀ c ∈ before, c.isBlank) (hafter : ∀ c ∈ after, c.isBlank) :
    trim (before ++ t ++ after) = trim t := by
  have hend (s : Text) : (s ++ after).rdropWhile CodePoint.isBlank
      = s.rdropWhile CodePoint.isBlank := by
    rw [List.rdropWhile, List.reverse_append, List.dropWhile_append_of_pos fun c hc =>
      hafter c (List.mem_reverse.mp hc)]
    rfl
  rw [trim_eq_rdropWhile, trim_eq_rdropWhile, List.append_assoc,
    List.dropWhile_append_of_pos hbefore]
  rw [List.dropWhile_append]
  split
  · -- All of the text is blank, and what follows it.
    rename_i hempty
    rw [List.isEmpty_iff.mp hempty, List.dropWhile_eq_nil_iff.mpr hafter]
  · exact hend _

end Text

namespace Lowercase

/-! ### Settled code points -/

/-- The code point is its own lower-case form, wherever it stands. -/
structure Settled (c : CodePoint) : Prop where
  ne_sigma : c ≠ .scalar 'Σ'
  ofCodePoint_eq : ofCodePoint c = [c]

/-- The number that the first member of a run moves to. -/
def Run.low (r : Run) : Nat := (r.first + r.shift).toNat

/-- The number that the last member of a run may move to. -/
def Run.high (r : Run) : Nat := (r.last + r.shift).toNat

/-- The members of `r` move past all members of `r'`: beyond its ends, or between its members. -/
def Run.passes (r r' : Run) : Bool :=
  r.high.blt r'.first || r'.last.blt r.low ||
    r'.step == 2 && (r.step == 2 || r.first == r.last) && (r.low + r'.first) % 2 == 1

/-- The members of a run move to letters, and these are not moved again. -/
def Run.lands (r : Run) : Bool :=
  59 < r.low && (r.high < 0xD800 || 0xE000 ≤ r.low && r.high < 0x110000) &&
    CodePointSet.allRuns (fun first next => r.high < first || next ≤ r.low)
      CodePointSet.blank.boundaries &&
    r.passes ⟨0x130, 0x130, 1, 0⟩ && runs.all r.passes

theorem lands_runs : ∀ r ∈ runs, r.lands := by decide +kernel

/-- A member moves past all members of a run that its own run passes. -/
theorem Run.contains_of_passes {r r' : Run} (h : r.passes r') (hlow : 0 < r.low) {n : Nat}
    (hn : r.contains n) : r'.contains (n + r.shift).toNat = false := by
  simp only [passes, Bool.or_eq_true, Bool.and_eq_true, Nat.blt_eq, beq_iff_eq] at h
  simp only [low, high] at h hlow
  simp only [contains, Bool.and_eq_true, decide_eq_true_eq, beq_iff_eq] at hn
  rw [← Bool.not_eq_true]
  simp only [contains, Bool.and_eq_true, decide_eq_true_eq, beq_iff_eq]
  rintro ⟨⟨hfirst, hlast⟩, hmember⟩
  rcases h with (hbelow | habove) | ⟨⟨hstep', hstep | hsingle⟩, hodd⟩
  · omega
  · omega
  · rw [hstep] at hn
    rw [hstep'] at hmember
    omega
  · rw [hstep'] at hmember
    omega

/-- What a code point becomes: settled code points, and new ones are neither blanks nor
semicolons. -/
structure Becomes (c d : CodePoint) : Prop where
  settled : Settled d
  eq_or : d = c ∨ d.isBlank = false ∧ d ≠ .scalar ';'

theorem settled_of_find? {c : CodePoint} (hdotted : c ≠ .scalar '\u0130')
    (h : runs.find? (·.contains c.toNat) = none) : Settled c := by
  constructor
  · rintro rfl
    exact absurd h (by decide)
  · rw [ofCodePoint, if_neg hdotted, h]

/-- The members of the runs become letters. -/
theorem becomes_of_contains {c : CodePoint} {r : Run} (hr : r ∈ runs) (hc : r.contains c.toNat) :
    Becomes c (.scalar (Char.ofNat (c.toNat + r.shift).toNat)) := by
  have hlands := lands_runs r hr
  simp only [Run.lands, Bool.and_eq_true, Bool.or_eq_true, decide_eq_true_eq] at hlands
  obtain ⟨⟨⟨⟨hlow, hvalid⟩, hblank⟩, hdotted⟩, hruns⟩ := hlands
  have hbounds : r.low ≤ (c.toNat + r.shift).toNat ∧ (c.toNat + r.shift).toNat ≤ r.high := by
    simp only [Run.contains, Bool.and_eq_true, decide_eq_true_eq] at hc
    simp only [Run.low, Run.high]
    omega
  have hnumber : (Char.ofNat (c.toNat + r.shift).toNat).toNat = (c.toNat + r.shift).toNat := by
    refine Utf8.toNat_ofNat ?_
    rw [Nat.isValidChar]
    omega
  have hpassed {r' : Run} (h : r.passes r') : r'.contains (c.toNat + r.shift).toNat = false :=
    Run.contains_of_passes h (by omega) hc
  refine ⟨settled_of_find? ?_ ?_, .inr ⟨?_, ?_⟩⟩
  · intro hsame
    have hmem := hpassed hdotted
    rw [← hnumber, CodePoint.scalar.inj hsame] at hmem
    exact absurd hmem (by decide)
  · rw [List.find?_eq_none]
    intro r' hr'
    rw [CodePoint.toNat, hnumber, hpassed (List.all_eq_true.mp hruns r' hr')]
    exact Bool.false_ne_true
  · rw [← Bool.not_eq_true]
    intro hmem
    obtain ⟨first, next, hcheck, hfirst, hnext⟩ := CodePointSet.exists_run hblank hmem
    simp only [Bool.or_eq_true, decide_eq_true_eq] at hcheck
    rw [CodePoint.toNat, hnumber] at hfirst hnext
    omega
  · intro hsame
    rw [CodePoint.scalar.inj hsame] at hnumber
    have hsemicolon : (';' : Char).toNat = 59 := rfl
    omega

theorem becomes_of_mem_ofCodePoint {c d : CodePoint} (h : d ∈ ofCodePoint c) : Becomes c d := by
  by_cases hdotted : c = .scalar '\u0130'
  · rw [ofCodePoint, if_pos hdotted] at h
    rcases List.mem_cons.mp h with rfl | h
    · exact ⟨⟨by decide, by decide⟩, .inr ⟨by decide, by decide⟩⟩
    · rw [List.mem_singleton.mp h]
      exact ⟨⟨by decide, by decide⟩, .inr ⟨by decide, by decide⟩⟩
  · rw [ofCodePoint, if_neg hdotted] at h
    rcases hfind : runs.find? (·.contains c.toNat) with _ | r
    · rw [hfind, List.mem_singleton] at h
      subst h
      exact ⟨settled_of_find? hdotted hfind, .inl rfl⟩
    · rw [hfind, List.mem_singleton] at h
      subst h
      have hcontains := List.find?_some hfind
      exact becomes_of_contains (List.mem_of_find?_eq_some hfind) hcontains

/-! ### Settled texts -/

variable {before t : Text} {c d : CodePoint}

/-- A text becomes what its first code point becomes, and then what the rest does. -/
theorem exists_piece (before : Text) (c : CodePoint) (rest : Text) : ∃ piece : Text,
    after before (c :: rest) = piece ++ after (c :: before) rest ∧ piece ≠ [] ∧
      (∀ d ∈ piece, Becomes c d) ∧ (Settled c → piece = [c]) := by
  refine ⟨_, rfl, ?_⟩
  split
  · rename_i hsigma
    have hsmall : Becomes c (.scalar 'σ') :=
      ⟨⟨by decide, by decide⟩, .inr ⟨by decide, by decide⟩⟩
    have hfinal : Becomes c (.scalar 'ς') :=
      ⟨⟨by decide, by decide⟩, .inr ⟨by decide, by decide⟩⟩
    refine ⟨?_, ?_, fun hsettled => absurd hsigma hsettled.ne_sigma⟩
    · split <;> exact List.cons_ne_nil _ _
    · intro d hd
      split at hd
      · exact List.mem_singleton.mp hd ▸ hfinal
      · exact List.mem_singleton.mp hd ▸ hsmall
  · refine ⟨?_, fun d => becomes_of_mem_ofCodePoint, fun hsettled => hsettled.ofCodePoint_eq⟩
    rw [ofCodePoint]
    split
    · exact List.cons_ne_nil _ _
    · split <;> exact List.cons_ne_nil _ _

theorem exists_of_mem_after (h : d ∈ after before t) : ∃ c ∈ t, Becomes c d := by
  induction t generalizing before with
  | nil => cases h
  | cons c rest ih =>
    obtain ⟨piece, hpiece, -, hbecomes, -⟩ := exists_piece before c rest
    rcases List.mem_append.mp (hpiece ▸ h) with hd | hd
    · exact ⟨c, List.mem_cons_self, hbecomes d hd⟩
    · obtain ⟨b, hb, hbecomes⟩ := ih hd
      exact ⟨b, List.mem_cons_of_mem _ hb, hbecomes⟩

theorem exists_of_mem_head? (h : d ∈ (after before t).head?) : ∃ c ∈ t.head?, Becomes c d := by
  cases t with
  | nil => cases h
  | cons c rest =>
    obtain ⟨piece, hpiece, hne, hbecomes, -⟩ := exists_piece before c rest
    rw [hpiece, List.head?_append_of_ne_nil _ hne] at h
    exact ⟨c, rfl, hbecomes d (List.mem_of_mem_head? h)⟩

theorem exists_of_mem_getLast? (h : d ∈ (after before t).getLast?) :
    ∃ c ∈ t.getLast?, Becomes c d := by
  induction t generalizing before with
  | nil => cases h
  | cons c rest ih =>
    obtain ⟨piece, hpiece, -, hbecomes, -⟩ := exists_piece before c rest
    rw [hpiece] at h
    cases rest with
    | nil =>
      rw [after, List.append_nil] at h
      exact ⟨c, rfl, hbecomes d (List.mem_of_mem_getLast? h)⟩
    | cons b rest =>
      obtain ⟨piece', hpiece', hne', -, -⟩ := exists_piece (c :: before) b rest
      rw [hpiece', List.getLast?_append_of_ne_nil _ (by simp [hne']), ← hpiece'] at h
      obtain ⟨e, he, hbecomes⟩ := ih h
      refine ⟨e, ?_, hbecomes⟩
      rwa [List.getLast?_cons_cons]

theorem after_of_settled (h : ∀ c ∈ t, Settled c) : after before t = t := by
  induction t generalizing before with
  | nil => rfl
  | cons c rest ih =>
    obtain ⟨piece, hpiece, -, -, hsettled⟩ := exists_piece before c rest
    rw [List.forall_mem_cons] at h
    rw [hpiece, hsettled h.1, ih h.2]
    rfl

end Lowercase

/-- Lower case is its own lower-case form. -/
theorem Text.lowercase_lowercase (t : Text) : t.lowercase.lowercase = t.lowercase :=
  Lowercase.after_of_settled fun _ hd =>
    have ⟨_, _, hbecomes⟩ := Lowercase.exists_of_mem_after hd
    hbecomes.settled

/-- A semicolon in lower case was there before. -/
theorem Text.mem_of_mem_lowercase {t : Text} (h : .scalar ';' ∈ t.lowercase) : .scalar ';' ∈ t := by
  obtain ⟨c, hc, hbecomes⟩ := Lowercase.exists_of_mem_after h
  rcases hbecomes.eq_or with rfl | ⟨-, hne⟩
  · exact hc
  · exact absurd rfl hne

theorem Text.Trimmed.lowercase {t : Text} (h : t.Trimmed) : t.lowercase.Trimmed := by
  constructor
  · intro d hd
    obtain ⟨c, hc, hbecomes⟩ := Lowercase.exists_of_mem_head? hd
    rcases hbecomes.eq_or with rfl | ⟨hblank, -⟩
    · exact h.head _ hc
    · exact hblank
  · intro d hd
    obtain ⟨c, hc, hbecomes⟩ := Lowercase.exists_of_mem_getLast? hd
    rcases hbecomes.eq_or with rfl | ⟨hblank, -⟩
    · exact h.last _ hc
    · exact hblank

/-! ### The case of ASCII letters -/

/-- The code point, or its small letter if it is an ASCII capital. -/
def CodePoint.asciiLower : CodePoint → CodePoint
  | .scalar c => .scalar c.toLower
  | .lone half => .lone half

/-- Only the ASCII capitals become other code points. -/
theorem CodePoint.asciiLower_cases (c : CodePoint) : c.asciiLower = c ∨
    ∃ i < 26, c = .scalar (Char.ofNat (65 + i)) ∧ c.asciiLower = .scalar (Char.ofNat (97 + i)) := by
  cases c with
  | lone half => exact .inl rfl
  | scalar c =>
    by_cases hcapital : 65 ≤ c.toNat ∧ c.toNat ≤ 90
    · have hsmall : c.toLower.toNat = c.toNat + 32 := by
        have hmoved : c.toLower.toNat = (c.toNat + 32) % 2 ^ 32 := by
          have hlower : c.toLower = ⟨c.val + 32, _⟩ := dif_pos hcapital
          rw [hlower]
          rfl
        rw [hmoved, Nat.mod_eq_of_lt (by omega)]
      refine .inr ⟨c.toNat - 65, by omega, ?_, ?_⟩
      · rw [Nat.add_sub_cancel' hcapital.1, Char.ofNat_toNat]
      · rw [asciiLower, ← Char.ofNat_toNat c.toLower, hsmall]
        congr 2
        omega
    · have hsame : c.toLower = c := dif_neg hcapital
      exact .inl (congrArg scalar hsame)

/-- A function that does not tell the ASCII capitals from the small letters does not tell a code
point from the one that it becomes. -/
theorem CodePoint.apply_asciiLower {α : Type} (f : CodePoint → α)
    (h : ∀ i < 26, f (.scalar (Char.ofNat (97 + i))) = f (.scalar (Char.ofNat (65 + i))))
    (c : CodePoint) : f c.asciiLower = f c := by
  rcases asciiLower_cases c with hsame | ⟨i, hi, hcapital, hsmall⟩
  · rw [hsame]
  · rw [hsmall, hcapital, h i hi]

@[simp]
theorem CodePoint.isBlank_asciiLower (c : CodePoint) : c.asciiLower.isBlank = c.isBlank :=
  apply_asciiLower isBlank (by decide) c

/-- A mark that is no ASCII letter is found in the same places. -/
theorem CodePoint.asciiLower_eq_iff {mark : Char}
    (hmark : ∀ i < 26, Char.ofNat (97 + i) ≠ mark ∧ Char.ofNat (65 + i) ≠ mark) {c : CodePoint} :
    c.asciiLower = .scalar mark ↔ c = .scalar mark := by
  refine decide_eq_decide.mp (c.apply_asciiLower (decide <| · = .scalar mark) fun i hi => ?_)
  simp [hmark i hi]

namespace Lowercase

@[simp]
theorem ofCodePoint_asciiLower (c : CodePoint) : ofCodePoint c.asciiLower = ofCodePoint c :=
  c.apply_asciiLower ofCodePoint (by decide +kernel)

@[simp]
theorem meetsCased_map_asciiLower (t : Text) :
    meetsCased (t.map CodePoint.asciiLower) = meetsCased t := by
  have hignorable (c : CodePoint) : CodePointSet.caseIgnorable.contains c.asciiLower.toNat
      = CodePointSet.caseIgnorable.contains c.toNat :=
    c.apply_asciiLower (CodePointSet.caseIgnorable.contains ·.toNat) (by decide +kernel)
  have hcased (c : CodePoint) : CodePointSet.cased.contains c.asciiLower.toNat
      = CodePointSet.cased.contains c.toNat :=
    c.apply_asciiLower (CodePointSet.cased.contains ·.toNat) (by decide +kernel)
  induction t with
  | nil => rfl
  | cons c t ih => rw [List.map_cons, meetsCased, meetsCased, hignorable, hcased, ih]

theorem after_map_asciiLower (before t : Text) :
    after (before.map CodePoint.asciiLower) (t.map CodePoint.asciiLower) = after before t := by
  have hsigma {c : CodePoint} : c.asciiLower = .scalar 'Σ' ↔ c = .scalar 'Σ' :=
    CodePoint.asciiLower_eq_iff (by decide)
  induction t generalizing before with
  | nil => rfl
  | cons c t ih =>
    have hrest := ih (c :: before)
    rw [List.map_cons] at hrest
    simp only [List.map_cons, after, hsigma, hrest, meetsCased_map_asciiLower,
      ofCodePoint_asciiLower]

end Lowercase

namespace Text

/-- Lower case does not depend on the case of the ASCII letters. -/
theorem lowercase_map_asciiLower (t : Text) :
    lowercase (t.map CodePoint.asciiLower) = t.lowercase :=
  Lowercase.after_map_asciiLower [] t

theorem trim_map_asciiLower (t : Text) :
    trim (t.map CodePoint.asciiLower) = t.trim.map CodePoint.asciiLower := by
  have hstart (s : Text) : (s.map CodePoint.asciiLower).dropWhile CodePoint.isBlank
      = (s.dropWhile CodePoint.isBlank).map CodePoint.asciiLower := by
    rw [List.dropWhile_map]
    congr 2
    funext c
    exact c.isBlank_asciiLower
  rw [trim, trimStart, trimStart, hstart, ← List.map_reverse, hstart, ← List.map_reverse]
  rfl

end Text

end CloudEnvelope
