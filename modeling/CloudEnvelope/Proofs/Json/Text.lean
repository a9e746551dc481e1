import CloudEnvelope.Json.Printer
import CloudEnvelope.Proofs.Text.Digits
import CloudEnvelope.Proofs.Text.Scalar

/-!
# JSON strings read back

`Json.string?_content`: a text is read back from the string that is written for it, in either
charset.  A code point is written as itself, as a short escape, as one escape of its number or, in
ASCII, as the escapes of its two halves (`Json.units`), and `joinPairs` puts the halves together
again.  So in ASCII no text can be told from the one where two neighbouring lone halves have become
the code point that they make, and a text that is to be read back must be `Text.Unpaired`.
-/

namespace CloudEnvelope

/-! ### Halves of surrogate pairs -/

/-- The code points are the two halves of a surrogate pair. -/
def CodePoint.Pairs : CodePoint → CodePoint → Prop
  | .lone high, .lone low => high.val < 0x400 ∧ 0x400 ≤ low.val
  | _, _ => False

theorem CodePoint.ofNat?_lone {k : Nat} (h : k < 0x800) :
    CodePoint.ofNat? (0xD800 + k) = some (.lone (Fin.ofNat 0x800 k)) := by
  have hfin : Fin.ofNat 0x800 k = ⟨k, h⟩ := Fin.ext (Nat.mod_eq_of_lt h)
  rw [hfin]
  exact CodePoint.ofNat?_toNat (.lone ⟨k, h⟩)

/-- No neighbours in the text are the two halves of a surrogate pair. -/
def Text.Unpaired (t : Text) : Prop := t.IsChain fun a b => ¬CodePoint.Pairs a b

theorem CodePoint.eq_scalar_of_toNat {c : CodePoint} {d : Char} (h : c.toNat = d.toNat) :
    c = .scalar d := by
  have hc := CodePoint.ofNat?_toNat c
  rw [h] at hc
  exact (Option.some.inj (hc.symm.trans (CodePoint.ofNat?_toNat (.scalar d))))

theorem CodePoint.toNat_lt (c : CodePoint) : c.toNat < 0x110000 := by
  cases c with
  | lone half =>
    have := half.isLt
    simp only [toNat]
    omega
  | scalar c =>
    rcases c.valid with hlow | hhigh <;> (simp only [toNat, Char.toNat] at *; omega)

@[simp] theorem Text.unpaired_cons {c : CodePoint} {t : Text} :
    Unpaired (c :: t) ↔ (∀ d ∈ t.head?, ¬CodePoint.Pairs c d) ∧ Unpaired t := by
  cases t with
  | nil => simp [Unpaired]
  | cons d t => simp [Unpaired, List.isChain_cons_cons]

/-- Without lone surrogates there are no pairs of them. -/
theorem Text.LoneFree.unpaired {t : Text} (h : t.LoneFree) : t.Unpaired := by
  induction t with
  | nil => exact .nil
  | cons c t ih =>
    rw [loneFree_cons] at h
    rw [unpaired_cons]
    refine ⟨fun d _ => ?_, ih h.2⟩
    cases c with
    | lone half => exact absurd rfl (h.1 half)
    | scalar c => exact id

namespace Json

/-- What does not pair with its neighbour stays by itself. -/
theorem joinPairs_cons {c : CodePoint} {t : Text} (h : ∀ d ∈ t.head?, ¬CodePoint.Pairs c d) :
    joinPairs (c :: t) = c :: joinPairs t := by
  cases c with
  | scalar c => rfl
  | lone high =>
    cases t with
    | nil => rfl
    | cons d t =>
      cases d with
      | scalar d => rfl
      | lone low =>
        rw [joinPairs]
        exact if_neg (h _ rfl)

/-- A code point as the reader of strings finds it: what is written in two escapes comes in two. -/
def units (charset : Charset) (c : CodePoint) : Text :=
  if charset = .ascii ∧ 0x10000 ≤ c.toNat then
    [.lone (Fin.ofNat 0x800 ((c.toNat - 0x10000) / 0x400)),
      .lone (Fin.ofNat 0x800 (0x400 + (c.toNat - 0x10000) % 0x400))]
  else [c]

/-- The halves of a code point beyond the first 0x10000 make it again. -/
theorem joinPairs_halves {c : Char} (h : 0x10000 ≤ c.toNat) (t : Text) :
    joinPairs (.lone (Fin.ofNat 0x800 ((c.toNat - 0x10000) / 0x400)) ::
      .lone (Fin.ofNat 0x800 (0x400 + (c.toNat - 0x10000) % 0x400)) :: t)
      = .scalar c :: joinPairs t := by
  have hlt : c.toNat < 0x110000 := CodePoint.toNat_lt (.scalar c)
  have hhigh : (Fin.ofNat 0x800 ((c.toNat - 0x10000) / 0x400)).val = (c.toNat - 0x10000) / 0x400 :=
    Nat.mod_eq_of_lt (by omega)
  have hlow : (Fin.ofNat 0x800 (0x400 + (c.toNat - 0x10000) % 0x400)).val
      = 0x400 + (c.toNat - 0x10000) % 0x400 := Nat.mod_eq_of_lt (by omega)
  have hsum : 0x10000 + (c.toNat - 0x10000) / 0x400 * 0x400
      + (0x400 + (c.toNat - 0x10000) % 0x400 - 0x400) = c.toNat := by omega
  rw [joinPairs, hhigh, hlow, if_pos (by omega), hsum, Char.ofNat_toNat]

theorem units_of_lt {charset : Charset} {c : CodePoint} (h : c.toNat < 0x10000) :
    units charset c = [c] :=
  if_neg fun hsplit => Nat.not_le.mpr h hsplit.2

/-- A code point is put together again, unless it is a lone half before its counterpart. -/
theorem joinPairs_units_append (charset : Charset) {c : CodePoint} {t : Text}
    (h : ∀ d ∈ t.head?, ¬CodePoint.Pairs c d) :
    joinPairs (units charset c ++ t) = c :: joinPairs t := by
  by_cases hsplit : charset = .ascii ∧ 0x10000 ≤ c.toNat
  · rw [units, if_pos hsplit]
    cases c with
    | lone half =>
      have hlt := half.isLt
      have hge : 0x10000 ≤ 0xD800 + half.val := hsplit.2
      omega
    | scalar c => exact joinPairs_halves hsplit.2 t
  · rw [units, if_neg hsplit]
    exact joinPairs_cons h

/-- What comes first of the units of a text pairs with nothing that its first code point does not
pair with. -/
theorem not_pairs_head_units (charset : Charset) {c : CodePoint} {t : Text}
    (h : ∀ d ∈ t.head?, ¬CodePoint.Pairs c d) :
    ∀ d ∈ (t.flatMap (units charset)).head?, ¬CodePoint.Pairs c d := by
  cases t with
  | nil => simp
  | cons d t =>
    rw [List.flatMap_cons, units]
    split_ifs with hsplit
    · -- The first half of a pair is no second half.
      rintro _ ⟨⟩
      cases c with
      | scalar c => exact id
      | lone high =>
        rintro ⟨-, hlow⟩
        have hlt := d.toNat_lt
        have hhigh : 0x400 ≤ (d.toNat - 0x10000) / 0x400 % 0x800 := hlow
        omega
    · rintro _ ⟨⟩
      exact h d rfl

theorem joinPairs_flatMap_units (charset : Charset) {t : Text} (h : t.Unpaired) :
    joinPairs (t.flatMap (units charset)) = t := by
  induction t with
  | nil => rfl
  | cons c t ih =>
    rw [Text.unpaired_cons] at h
    rw [List.flatMap_cons, joinPairs_units_append charset (not_pairs_head_units charset h.1),
      ih h.2]

/-! ### One code point -/

theorem hexValue?_digitChar {k : Nat} (h : k < 16) : hexValue? k.digitChar = some k := by
  have hall : ∀ k : Fin 16, hexValue? k.val.digitChar = some k.val := by decide
  exact hall ⟨k, h⟩

theorem units?_escapeUnit {n : Nat} {c : CodePoint} (h : n < 0x10000)
    (hc : CodePoint.ofNat? n = some c) (rest : List Char) :
    units? ((escapeUnit n).chars ++ rest) = (units? rest).map fun p => (c :: p.1, p.2) := by
  have hchars : (escapeUnit n).chars = '\\' :: 'u' :: filled 16 4 n := Text.chars_ofChars _
  have hnumber : ((n / 16 / 16 / 16 * 16 + n / 16 / 16 % 16) * 16 + n / 16 % 16) * 16 + n % 16
      = n := by omega
  rw [hchars, filled_four (by decide) h]
  simp only [List.cons_append, List.nil_append, units?, unit?]
  rw [hexValue?_digitChar (by omega), hexValue?_digitChar (by omega),
    hexValue?_digitChar (by omega), hexValue?_digitChar (by omega)]
  simp only [Option.bind_eq_bind, Option.bind_some, hnumber, hc]
  cases units? rest <;> rfl

theorem units?_shortEscape {e c : Char} (h : escaped? e = some c) (rest : List Char) :
    units? ('\\' :: e :: rest) = (units? rest).map fun p => (.scalar c :: p.1, p.2) := by
  have hne : e ≠ 'u' := by
    rintro rfl
    cases h
  rw [units?]
  · rw [h]
    cases units? rest <;> rfl
  · exact fun a b c' d rest' heq _ => hne heq

theorem units?_plain {c : Char} (hlo : 0x20 ≤ c.toNat) (hquote : c ≠ '"') (hslash : c ≠ '\\')
    (rest : List Char) :
    units? (c :: rest) = (units? rest).map fun p => (.scalar c :: p.1, p.2) := by
  have hcontrol : (c.toNat < 0x20 || c == '\\') = false := by
    simp [hslash, Nat.not_lt.mpr hlo]
  rw [units?]
  · rw [hcontrol]
    cases units? rest <;> rfl
  · exact hquote
  · exact fun a b c' d rest' heq _ => hslash heq
  · exact fun e rest' heq _ => hslash heq

/-- A short escape is a backslash and a letter that stands for the code point. -/
theorem shortEscape?_eq_some {n : Nat} {t : Text} (h : shortEscape? n = some t) :
    ∃ e c : Char, t = Text.ofChars ['\\', e] ∧ escaped? e = some c ∧ n = c.toNat ∧
      n < 0x80 := by
  unfold shortEscape? at h
  split_ifs at h with h₁ h₂ h₃ h₄ h₅ h₆ h₇ <;> cases h
  · exact ⟨'"', '"', rfl, rfl, h₁, by omega⟩
  · exact ⟨'\\', '\\', rfl, rfl, h₂, by omega⟩
  · exact ⟨'n', '\n', rfl, rfl, h₃, by omega⟩
  · exact ⟨'r', '\r', rfl, rfl, h₄, by omega⟩
  · exact ⟨'t', '\t', rfl, rfl, h₅, by omega⟩
  · exact ⟨'b', '\x08', rfl, rfl, h₆, by omega⟩
  · exact ⟨'f', '\x0c', rfl, rfl, h₇, by omega⟩

/-- The escapes of a code point are found as its units. -/
theorem units?_escapePoint {charset : Charset} {c : CodePoint}
    (h : c.toNat < 0x20 ∨ charset = .ascii) (rest : List Char) :
    units? ((escapePoint c.toNat).chars ++ rest)
      = (units? rest).map fun p => (units charset c ++ p.1, p.2) := by
  rw [escapePoint]
  by_cases hn : c.toNat < 0x10000
  · rw [if_pos hn, units_of_lt hn]
    exact units?_escapeUnit hn (CodePoint.ofNat?_toNat c) rest
  · -- Only ASCII escapes what lies beyond the first 0x10000, half by half.
    have hlt := c.toNat_lt
    have hunits : units charset c = _ :=
      if_pos ⟨h.resolve_left (by omega), Nat.not_lt.mp hn⟩
    have hhigh := CodePoint.ofNat?_lone (k := (c.toNat - 0x10000) / 0x400) (by omega)
    have hlow := CodePoint.ofNat?_lone (k := 0x400 + (c.toNat - 0x10000) % 0x400) (by omega)
    rw [← Nat.add_assoc] at hlow
    rw [if_neg hn, hunits, Text.chars_append, List.append_assoc,
      units?_escapeUnit (by omega) hhigh, units?_escapeUnit (by omega) hlow]
    cases units? rest <;> rfl

/-- A code point that is not escaped is found as it is. -/
theorem units?_unescaped {charset : Charset} {d : Char} (hshort : shortEscape? d.toNat = none)
    (hlo : 0x20 ≤ d.toNat) (hascii : charset = .ascii → d.toNat ≤ 0x7E) (rest : List Char) :
    units? (d :: rest) = (units? rest).map fun p => (units charset (.scalar d) ++ p.1, p.2) := by
  have hunits : units charset (.scalar d) = [.scalar d] := by
    refine if_neg fun hsplit => ?_
    have hle := hascii hsplit.1
    have hge : 0x10000 ≤ d.toNat := hsplit.2
    omega
  rw [hunits]
  refine units?_plain hlo ?_ ?_ rest
  · rintro rfl
    cases hshort
  · rintro rfl
    cases hshort

/-- A code point is found as its units in what is written for it. -/
theorem units?_writePoint {charset : Charset} {c : CodePoint}
    (h : (writePoint charset c).LoneFree) (rest : List Char) :
    units? ((writePoint charset c).chars ++ rest)
      = (units? rest).map fun p => (units charset c ++ p.1, p.2) := by
  rw [writePoint] at h ⊢
  cases hshort : shortEscape? c.toNat with
  | some t =>
    obtain ⟨e, d, rfl, he, hd, hlt⟩ := shortEscape?_eq_some hshort
    rw [units_of_lt (by omega), CodePoint.eq_scalar_of_toNat hd]
    exact units?_shortEscape he rest
  | none =>
    simp only [hshort] at h ⊢
    by_cases hescape : c.toNat < 0x20 || (charset == .ascii && 0x7E < c.toNat)
    · rw [if_pos hescape]
      simp only [Bool.or_eq_true, decide_eq_true_eq, Bool.and_eq_true, beq_iff_eq] at hescape
      exact units?_escapePoint (hescape.imp_right And.left) rest
    · rw [if_neg hescape] at h ⊢
      simp only [Bool.or_eq_true, decide_eq_true_eq, not_or, Bool.and_eq_true, beq_iff_eq, not_and,
        Nat.not_lt] at hescape
      -- A lone surrogate would stand for itself, and what is written has none.
      cases c with
      | lone half => exact absurd rfl ((Text.loneFree_cons.mp h).1 half)
      | scalar d => exact units?_unescaped hshort hescape.1 hescape.2 rest

/-! ### Texts -/

/-- What is written between the quotes of a string. -/
def content (charset : Charset) (t : Text) : Text := t.flatMap (writePoint charset)

theorem writeString_eq (charset : Charset) (t : Text) :
    writeString charset t = .scalar '"' :: (content charset t ++ [.scalar '"']) := rfl

theorem units?_content {charset : Charset} {t : Text} (h : (content charset t).LoneFree)
    (rest : List Char) :
    units? ((content charset t).chars ++ '"' :: rest) = some (t.flatMap (units charset), rest) := by
  induction t with
  | nil => rfl
  | cons c t ih =>
    have hcons : content charset (c :: t) = writePoint charset c ++ content charset t := rfl
    rw [hcons, Text.loneFree_append] at h
    rw [hcons, Text.chars_append, List.append_assoc, units?_writePoint h.1, ih h.2]
    rfl

/-- A lone surrogate stands for itself when nothing but what must be is escaped. -/
theorem writePoint_unicode_lone (half : Fin 0x800) :
    writePoint .unicode (.lone half) = [.lone half] := by
  have hge : 0xD800 ≤ (CodePoint.lone half).toNat := Nat.le_add_right _ _
  have hshort : shortEscape? (CodePoint.lone half).toNat = none := by
    unfold shortEscape?
    split_ifs <;> first | omega | rfl
  have hplain : ¬(CodePoint.lone half).toNat < 0x20 := by omega
  simp [writePoint, hshort, hplain]

theorem loneFree_of_content {t : Text} (h : (content .unicode t).LoneFree) : t.LoneFree := by
  intro half hmem
  refine h half (List.mem_flatMap.mpr ⟨_, hmem, ?_⟩)
  rw [writePoint_unicode_lone]
  exact List.mem_cons_self ..

/-- A text is read back from what is written between the quotes. -/
theorem string?_content {charset : Charset} {t : Text} (h : (content charset t).LoneFree)
    (hpairs : charset = .ascii → t.Unpaired) (rest : List Char) :
    string? ((content charset t).chars ++ '"' :: rest) = some (t, rest) := by
  have hunpaired : t.Unpaired := by
    cases charset with
    | ascii => exact hpairs rfl
    | unicode => exact (loneFree_of_content h).unpaired
  rw [string?, units?_content h]
  simp only [Option.bind_eq_bind, Option.bind_some, joinPairs_flatMap_units charset hunpaired]

end Json

end CloudEnvelope
