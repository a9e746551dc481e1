import CloudEnvelope.Proofs.Json.Denotation
import Mathlib.Data.List.TakeWhile
import Mathlib.Tactic.Common

/-!
# JSON texts end where they end

What a reader takes from the start of a text is the same whatever follows it.  Strings, arrays and
objects have an end of their own (`Json.string?_extend`, `Json.items?_extend`,
`Json.members?_extend`); a word or a number goes on for as long as it can, so something must stand
behind it that it cannot go on with (`Json.Stops`, `Json.atom?_extend`).  Inside of arrays and
objects a comma or a bracket does.

So behind a text that denotes a string, an array or an object only blanks may stand
(`Json.read?_append`), and when the end of the text of an object is missing, no text is left
(`Json.read?_eq_none_of_prefix`).
-/

namespace CloudEnvelope.Json

variable {cs rest : List Char}

/-! ### Blanks -/

theorem skipBlanks_extend (h : skipBlanks cs ≠ []) (more : List Char) :
    skipBlanks (cs ++ more) = skipBlanks cs ++ more := by
  rw [skipBlanks, List.dropWhile_append, if_neg (by simpa [skipBlanks] using h)]
  rfl

theorem skipBlanks_cons_extend {c : Char} (h : skipBlanks cs = c :: rest) (more : List Char) :
    skipBlanks (cs ++ more) = c :: (rest ++ more) := by
  rw [skipBlanks_extend (h ▸ List.cons_ne_nil c rest), h, List.cons_append]

/-! ### Something is always read -/

theorem ne_nil_of_value? {fuel : Nat} {j : Json} (h : value? fuel cs = some (j, rest)) :
    cs ≠ [] := by
  rintro rfl
  rw [value?_nil] at h
  cases h

theorem ne_nil_of_items? {fuel : Nat} {items : List Json}
    (h : items? fuel cs = some (items, rest)) : cs ≠ [] := by
  rintro rfl
  rw [items?_eq_none value?_nil] at h
  cases h

theorem ne_nil_of_members? {fuel : Nat} {members : List (Text × Json)}
    (h : members? fuel cs = some (members, rest)) : cs ≠ [] := by
  rintro rfl
  rw [members?_eq_none (by simp)] at h
  cases h

/-! ### Numbers -/

/-- Something stands at the start, and no number goes on with it. -/
def Stops (cs : List Char) : Prop :=
  ∃ c rest, cs = c :: rest ∧ c.isDigit = false ∧ c ∉ numeralMarks

theorem Stops.ne_nil (h : Stops cs) : cs ≠ [] := by
  obtain ⟨c, rest, rfl, -⟩ := h
  exact List.cons_ne_nil c rest

/-- Behind a value of an array or an object stands a blank, a comma or a closing bracket. -/
theorem stops_of_skipBlanks {c : Char} (h : skipBlanks cs = c :: rest)
    (hc : c = ',' ∨ c = ']' ∨ c = '\x7d') : Stops cs := by
  cases cs with
  | nil => cases h
  | cons d tail =>
    by_cases hd : isBlank d
    · refine ⟨_, _, rfl, ?_⟩
      simp only [isBlank, Bool.or_eq_true, beq_iff_eq] at hd
      rcases hd with ((rfl | rfl) | rfl) | rfl <;> decide
    · rw [skipBlanks_cons (Bool.eq_false_iff.mpr hd)] at h
      cases h
      refine ⟨_, _, rfl, ?_⟩
      rcases hc with rfl | rfl | rfl <;> decide

/-- A run of digits is the same whatever follows what ends it. -/
theorem digits_extend (h : cs.dropWhile Char.isDigit ≠ []) (more : List Char) :
    (cs ++ more).takeWhile Char.isDigit = cs.takeWhile Char.isDigit ∧
      (cs ++ more).dropWhile Char.isDigit = cs.dropWhile Char.isDigit ++ more := by
  induction cs with
  | nil => exact absurd rfl h
  | cons c cs ih =>
    by_cases hc : c.isDigit
    · rw [List.dropWhile_cons_of_pos hc] at h
      obtain ⟨htake, hdrop⟩ := ih h
      rw [List.cons_append, List.takeWhile_cons_of_pos hc, List.takeWhile_cons_of_pos hc,
        List.dropWhile_cons_of_pos hc, List.dropWhile_cons_of_pos hc, htake, hdrop]
      exact ⟨rfl, rfl⟩
    · simp [List.takeWhile_cons_of_neg hc, List.dropWhile_cons_of_neg hc]

theorem wholePart?_of_ne {d : Char} (hd : d ≠ '0') (tail : List Char) :
    wholePart? (d :: tail) = if ((d :: tail).takeWhile Char.isDigit).isEmpty then none
      else some ((d :: tail).takeWhile Char.isDigit, (d :: tail).dropWhile Char.isDigit) := by
  rw [wholePart?]
  exact fun rest heq => hd (List.cons.inj heq).1

theorem wholePart?_extend {whole : List Char} (h : wholePart? cs = some (whole, rest))
    (hrest : rest ≠ []) (more : List Char) :
    wholePart? (cs ++ more) = some (whole, rest ++ more) := by
  cases cs with
  | nil => cases h
  | cons d tail =>
    by_cases hd : d = '0'
    · subst hd
      cases h
      rfl
    · rw [wholePart?_of_ne hd] at h
      split at h
      · cases h
      · rename_i hdigits
        cases h
        obtain ⟨htake, hdrop⟩ := digits_extend hrest more
        rw [List.cons_append] at htake hdrop ⊢
        rw [wholePart?_of_ne hd, htake, hdrop, if_neg hdigits]

theorem fractionPart_of_ne {d : Char} (hd : d ≠ '.') (tail : List Char) :
    fractionPart (d :: tail) = ([], d :: tail) := by
  rw [fractionPart]
  exact fun rest heq => hd (List.cons.inj heq).1

theorem fractionPart_point (tail : List Char) : fractionPart ('.' :: tail) =
    if (tail.takeWhile Char.isDigit).isEmpty then ([], '.' :: tail)
    else (tail.takeWhile Char.isDigit, tail.dropWhile Char.isDigit) := rfl

/-- A fraction is the same whatever follows, if what is left cannot go on with it. -/
theorem fractionPart_extend (h : (fractionPart cs).2 ≠ [])
    (hpoint : (fractionPart cs).2.head? ≠ some '.') (more : List Char) :
    fractionPart (cs ++ more) = ((fractionPart cs).1, (fractionPart cs).2 ++ more) := by
  cases cs with
  | nil => exact absurd rfl h
  | cons d tail =>
    rw [List.cons_append]
    by_cases hd : d = '.'
    · subst hd
      rw [fractionPart_point] at h hpoint
      rw [fractionPart_point, fractionPart_point]
      by_cases hdigits : (tail.takeWhile Char.isDigit).isEmpty
      · -- A point without digits is left standing.
        rw [if_pos hdigits] at hpoint
        exact absurd rfl hpoint
      · rw [if_neg hdigits] at h
        obtain ⟨htake, hdrop⟩ := digits_extend h more
        rw [htake, hdrop, if_neg hdigits, if_neg hdigits]
    · rw [fractionPart_of_ne hd, fractionPart_of_ne hd]
      rfl

/-- The sign of an exponent, and what follows. -/
def exponentSign (cs : List Char) : Bool × List Char :=
  match cs with
  | '-' :: more => (true, more)
  | '+' :: more => (false, more)
  | _ => (false, cs)

theorem exponentSign_of_ne {d : Char} (hminus : d ≠ '-') (hplus : d ≠ '+') (tail : List Char) :
    exponentSign (d :: tail) = (false, d :: tail) := by
  rw [exponentSign]
  · exact fun rest heq => hminus (List.cons.inj heq).1
  · exact fun rest heq => hplus (List.cons.inj heq).1

theorem exponentSign_extend (h : (exponentSign cs).2 ≠ []) (more : List Char) :
    exponentSign (cs ++ more) = ((exponentSign cs).1, (exponentSign cs).2 ++ more) := by
  cases cs with
  | nil => exact absurd rfl h
  | cons d tail =>
    by_cases hminus : d = '-'
    · subst hminus
      rfl
    · by_cases hplus : d = '+'
      · subst hplus
        rfl
      · rw [List.cons_append, exponentSign_of_ne hminus hplus, exponentSign_of_ne hminus hplus]
        rfl

theorem exponentPart_cons (d : Char) (tail : List Char) : exponentPart (d :: tail) =
    if d == 'e' || d == 'E' then
      if ((exponentSign tail).2.takeWhile Char.isDigit).isEmpty then (none, d :: tail)
      else
        let n : Int := Nat.ofDigitChars 10 ((exponentSign tail).2.takeWhile Char.isDigit) 0
        (some (if (exponentSign tail).1 then -n else n),
          (exponentSign tail).2.dropWhile Char.isDigit)
    else (none, d :: tail) := rfl

/-- An exponent is the same whatever follows, if a number stops behind it.  Then no fraction goes on
before it. -/
theorem exponentPart_extend (h : Stops (exponentPart cs).2) (more : List Char) :
    exponentPart (cs ++ more) = ((exponentPart cs).1, (exponentPart cs).2 ++ more) ∧
      cs ≠ [] ∧ cs.head? ≠ some '.' := by
  cases cs with
  | nil => exact absurd rfl h.ne_nil
  | cons d tail =>
    by_cases hletter : d == 'e' || d == 'E'
    · have hmark : d ∈ numeralMarks ∧ d ≠ '.' := by
        simp only [Bool.or_eq_true, beq_iff_eq] at hletter
        rcases hletter with rfl | rfl <;> decide
      by_cases hdigits : ((exponentSign tail).2.takeWhile Char.isDigit).isEmpty
      · -- A letter without digits is left standing, and stops no number.
        rw [exponentPart_cons, if_pos hletter, if_pos hdigits] at h
        obtain ⟨_, _, ⟨⟩, -, hnot⟩ := h
        exact absurd hmark.1 hnot
      · rw [exponentPart_cons, if_pos hletter, if_neg hdigits] at h
        have hbody : (exponentSign tail).2 ≠ [] := by
          intro hnil
          rw [hnil] at hdigits
          exact hdigits rfl
        obtain ⟨htake, hdrop⟩ := digits_extend h.ne_nil more
        refine ⟨?_, List.cons_ne_nil d tail, fun hhead => hmark.2 (Option.some.inj hhead)⟩
        simp only [List.cons_append, exponentPart_cons, if_pos hletter, exponentSign_extend hbody,
          htake, hdrop, if_neg hdigits]
    · rw [exponentPart_cons, if_neg hletter] at h ⊢
      obtain ⟨_, _, ⟨⟩, -, hnot⟩ := h
      refine ⟨?_, List.cons_ne_nil d tail, ?_⟩
      · rw [List.cons_append, exponentPart_cons, if_neg hletter]
      · rintro ⟨⟩
        exact hnot (by decide)

/-- The sign of a number, and what follows. -/
def signPart (cs : List Char) : Bool × List Char :=
  match cs with
  | '-' :: rest => (true, rest)
  | _ => (false, cs)

theorem signPart_of_ne {d : Char} (hminus : d ≠ '-') (tail : List Char) :
    signPart (d :: tail) = (false, d :: tail) := by
  rw [signPart]
  exact fun rest heq => hminus (List.cons.inj heq).1

/-- A number is a sign, a whole part, a fraction and an exponent. -/
theorem number?_eq (cs : List Char) :
    number? cs = (wholePart? (signPart cs).2).map fun p =>
      (ofParts (signPart cs).1 p.1 (fractionPart p.2).1 (exponentPart (fractionPart p.2).2).1,
        (exponentPart (fractionPart p.2).2).2) := by
  show ((wholePart? (signPart cs).2).bind fun p => _) = _
  cases wholePart? (signPart cs).2 with
  | none => rfl
  | some p =>
    simp only [Option.bind_some, Option.map_some, ofParts]
    split <;> rfl

theorem signPart_extend (h : (signPart cs).2 ≠ []) (more : List Char) :
    signPart (cs ++ more) = ((signPart cs).1, (signPart cs).2 ++ more) := by
  cases cs with
  | nil => exact absurd rfl h
  | cons d tail =>
    by_cases hminus : d = '-'
    · subst hminus
      rfl
    · rw [List.cons_append, signPart_of_ne hminus, signPart_of_ne hminus]
      rfl

/-- A number is the same whatever follows, if something stands behind it that stops it. -/
theorem number?_extend {j : Json} (h : number? cs = some (j, rest)) (hrest : Stops rest)
    (more : List Char) : number? (cs ++ more) = some (j, rest ++ more) := by
  rw [number?_eq, Option.map_eq_some_iff] at h
  obtain ⟨⟨whole, afterWhole⟩, hwhole, hparts⟩ := h
  obtain ⟨hj, rfl⟩ := Prod.mk.inj hparts
  dsimp only at hj hrest ⊢
  -- From the end on: each part leaves something that the part before it cannot go on with.
  obtain ⟨hexponent, hne, hpoint⟩ := exponentPart_extend hrest more
  have hfraction := fractionPart_extend hne hpoint more
  have hafter : afterWhole ≠ [] := by
    rintro rfl
    exact hne rfl
  have hbody : (signPart cs).2 ≠ [] := by
    intro hnil
    rw [hnil] at hwhole
    cases hwhole
  rw [number?_eq, signPart_extend hbody, wholePart?_extend hwhole hafter, Option.map_some]
  simp only [hfraction, hexponent, hj]

/-! ### Words -/

/-- What follows a word is what stands behind it. -/
theorem after?_eq_some_iff {word : List Char} : after? word cs = some rest ↔ cs = word ++ rest := by
  unfold after?
  constructor
  · intro h
    split at h
    · rename_i hword
      obtain ⟨tail, rfl⟩ := List.isPrefixOf_iff_prefix.mp hword
      rw [List.drop_left] at h
      cases h
      rfl
    · cases h
  · rintro rfl
    rw [if_pos (List.isPrefixOf_iff_prefix.mpr (List.prefix_append word rest)), List.drop_left]

/-- No word is the start of another. -/
theorem words_apart : words.Pairwise fun v w => ¬v.1 <+: w.1 ∧ ¬w.1 <+: v.1 := by decide

/-- The word that stands at the start, with its value. -/
def word? (cs : List Char) : Option (Json × List Char) :=
  words.findSome? fun (word, j) => (after? word cs).map (j, ·)

theorem atom?_eq (cs : List Char) : atom? cs = (word? cs).or (number? cs) := by
  unfold atom? word?
  split
  · rename_i hword
    rw [hword]
    rfl
  · rename_i hword
    rw [hword]
    rfl

/-- It does not matter in which order words are looked for. -/
theorem word?_eq_some_iff {j : Json} :
    word? cs = some (j, rest) ↔ ∃ word, (word, j) ∈ words ∧ cs = word ++ rest := by
  constructor
  · intro h
    obtain ⟨w, hmem, hw⟩ := List.exists_of_findSome?_eq_some h
    obtain ⟨tail, hafter, hparts⟩ := Option.map_eq_some_iff.mp hw
    obtain ⟨rfl, rfl⟩ := Prod.mk.inj hparts
    exact ⟨w.1, hmem, after?_eq_some_iff.mp hafter⟩
  · rintro ⟨word, hmem, rfl⟩
    obtain ⟨before, after, hwords⟩ := List.append_of_mem hmem
    have hapart := words_apart
    rw [hwords, List.pairwise_append] at hapart
    refine List.findSome?_eq_some_iff.mpr ⟨before, (word, j), after, hwords, ?_, ?_⟩
    · exact Option.map_eq_some_iff.mpr ⟨rest, after?_eq_some_iff.mpr rfl, rfl⟩
    · -- A word in front of it in the list would be the start of it, or the other way round.
      intro v hv
      obtain ⟨hvw, hwv⟩ := hapart.2.2 v hv (word, j) List.mem_cons_self
      rw [Option.map_eq_none_iff, Option.eq_none_iff_forall_ne_some]
      intro tail htail
      have hstart : v.1 <+: word ++ rest := ⟨tail, (after?_eq_some_iff.mp htail).symm⟩
      rcases List.prefix_or_prefix_of_prefix hstart (List.prefix_append word rest) with hle | hle
      · exact hvw hle
      · exact hwv hle

theorem word?_extend {j : Json} (h : word? cs = some (j, rest)) (more : List Char) :
    word? (cs ++ more) = some (j, rest ++ more) := by
  obtain ⟨word, hmem, rfl⟩ := word?_eq_some_iff.mp h
  exact word?_eq_some_iff.mpr ⟨word, hmem, List.append_assoc _ _ _⟩

/-! ### Words and numbers -/

/-- A whole part starts with a digit. -/
theorem exists_digit_of_wholePart? {whole : List Char} (h : wholePart? cs = some (whole, rest)) :
    ∃ d ds, d.isDigit ∧ cs = d :: ds := by
  cases cs with
  | nil => cases h
  | cons d ds =>
    refine ⟨d, ds, ?_, rfl⟩
    by_contra hd
    rw [wholePart?] at h
    · rw [List.takeWhile_cons_of_neg hd] at h
      cases h
    · rintro rest' heq
      exact hd ((List.cons.inj heq).1 ▸ rfl)

/-- A number starts with a digit, perhaps behind a minus sign. -/
theorem exists_digit_of_number? {j : Json} (h : number? cs = some (j, rest)) :
    ∃ d ds, d.isDigit ∧ (cs = d :: ds ∨ cs = '-' :: d :: ds) := by
  rw [number?_eq, Option.map_eq_some_iff] at h
  obtain ⟨⟨whole, afterWhole⟩, hwhole, -⟩ := h
  obtain ⟨d, ds, hd, hstart⟩ := exists_digit_of_wholePart? hwhole
  refine ⟨d, ds, hd, ?_⟩
  unfold signPart at hstart
  split at hstart
  · exact .inr (congrArg _ hstart)
  · exact .inl hstart

/-- A word or a number is the same whatever follows, if something stands behind it that it cannot go
on with. -/
theorem atom?_extend {j : Json} (h : atom? cs = some (j, rest)) (hrest : Stops rest)
    (more : List Char) : atom? (cs ++ more) = some (j, rest ++ more) := by
  rw [atom?_eq, Option.or_eq_some_iff] at h
  rcases h with hword | ⟨-, hnumber⟩
  · rw [atom?_eq, word?_extend hword, Option.some_or]
  · have hmore := number?_extend hnumber hrest more
    obtain ⟨d, ds, hd, rfl | rfl⟩ := exists_digit_of_number? hnumber
    · exact (atom?_digit hd _).trans hmore
    · exact (atom?_minus_digit hd _).trans hmore

/-! ### Strings -/

/-- A string is the same whatever follows its closing quote. -/
theorem units?_extend {t : Text} (h : units? cs = some (t, rest)) (more : List Char) :
    units? (cs ++ more) = some (t, rest ++ more) := by
  fun_induction units? cs generalizing t rest with
  | case1 => cases h
  | case2 tail =>
    cases h
    rfl
  | case3 a b c d tail ih =>
    simp only [Option.bind_eq_bind, Option.bind_eq_some_iff, Prod.exists, Option.some.injEq,
      Prod.mk.injEq] at h
    obtain ⟨u, hu, t', rest', htail, rfl, rfl⟩ := h
    simp only [List.cons_append, units?, hu, ih htail, Option.bind_eq_bind, Option.bind_some]
  | case4 e tail _ ih =>
    simp only [Option.bind_eq_bind, Option.bind_eq_some_iff, Prod.exists, Option.some.injEq,
      Prod.mk.injEq] at h
    obtain ⟨c, hc, t', rest', htail, rfl, rfl⟩ := h
    rw [List.cons_append, List.cons_append, units?_shortEscape hc, ih htail]
    rfl
  | case5 => cases h
  | case6 c tail hquote _ _ hplain ih =>
    simp only [Option.bind_eq_bind, Option.bind_eq_some_iff, Prod.exists, Option.some.injEq,
      Prod.mk.injEq] at h
    obtain ⟨t', rest', htail, rfl, rfl⟩ := h
    simp only [Bool.or_eq_true, decide_eq_true_eq, beq_iff_eq, not_or, Nat.not_lt] at hplain
    rw [List.cons_append, units?_plain hplain.1 hquote hplain.2, ih htail]
    rfl

theorem string?_extend {t : Text} (h : string? cs = some (t, rest)) (more : List Char) :
    string? (cs ++ more) = some (t, rest ++ more) := by
  simp only [string?, Option.bind_eq_bind, Option.bind_eq_some_iff, Prod.exists, Option.some.injEq,
    Prod.mk.injEq] at h
  obtain ⟨u, rest', hunits, rfl, rfl⟩ := h
  rw [string?, units?_extend hunits]
  rfl

/-! ### Values -/

mutual

/-- A value is the same whatever follows it, if something stands behind it that it cannot go on
with.  Strings, arrays and objects have an end of their own. -/
theorem value?_extend {fuel fuel' : Nat} {cs rest : List Char} {j : Json}
    (h : value? fuel cs = some (j, rest)) (hfuel : fuel ≤ fuel') (hrest : j.IsAtom → Stops rest)
    (more : List Char) : value? fuel' (cs ++ more) = some (j, rest ++ more) := by
  -- By the fuel, of which each of the three readers leaves one less to the next.
  match fuel with
  | 0 => cases h
  | fuel + 1 =>
    obtain ⟨fuel', rfl, hfuel'⟩ := exists_fuel hfuel
    rw [value?_eq_some_iff] at h ⊢
    rcases h with ⟨start, t, rfl, hstring, rfl⟩ | ⟨start, items, rfl, hitems, rfl⟩ |
      ⟨start, members, rfl, hmembers, rfl⟩ | hatom
    · exact .inl ⟨start ++ more, t, rfl, string?_extend hstring more, rfl⟩
    · refine .inr (.inl ⟨start ++ more, items, rfl, ?_, rfl⟩)
      rcases hitems with ⟨hclosing, rfl⟩ | hitems
      · exact .inl ⟨skipBlanks_cons_extend hclosing more, rfl⟩
      · rw [skipBlanks_extend (ne_nil_of_items? hitems)]
        exact .inr (items?_extend hitems hfuel' more)
    · refine .inr (.inr (.inl ⟨start ++ more, members, rfl, ?_, rfl⟩))
      rcases hmembers with ⟨hclosing, rfl⟩ | hmembers
      · exact .inl ⟨skipBlanks_cons_extend hclosing more, rfl⟩
      · rw [skipBlanks_extend (ne_nil_of_members? hmembers)]
        exact .inr (members?_extend hmembers hfuel' more)
    · exact .inr (.inr (.inr (atom?_extend hatom (hrest (isAtom_of_atom? hatom)) more)))

/-- Items are the same whatever follows their closing bracket. -/
theorem items?_extend {fuel fuel' : Nat} {cs rest : List Char} {items : List Json}
    (h : items? fuel cs = some (items, rest)) (hfuel : fuel ≤ fuel') (more : List Char) :
    items? fuel' (cs ++ more) = some (items, rest ++ more) := by
  match fuel with
  | 0 => cases h
  | fuel + 1 =>
    obtain ⟨fuel', rfl, hfuel'⟩ := exists_fuel hfuel
    rw [items?_eq_some_iff] at h ⊢
    obtain ⟨j, afterValue, hvalue, hend⟩ := h
    -- An item that is a number goes on up to the comma or the bracket, and no further.
    have hstops : Stops afterValue := by
      rcases hend with ⟨hclosing, -⟩ | ⟨next, items', hcomma, -⟩
      · exact stops_of_skipBlanks hclosing (.inr (.inl rfl))
      · exact stops_of_skipBlanks hcomma (.inl rfl)
    refine ⟨j, afterValue ++ more, value?_extend hvalue hfuel' (fun _ => hstops) more, ?_⟩
    rcases hend with ⟨hclosing, rfl⟩ | ⟨next, items', hcomma, hitems, rfl⟩
    · exact .inl ⟨skipBlanks_cons_extend hclosing more, rfl⟩
    · refine .inr ⟨next ++ more, items', skipBlanks_cons_extend hcomma more, ?_, rfl⟩
      rw [skipBlanks_extend (ne_nil_of_items? hitems)]
      exact items?_extend hitems hfuel' more

/-- Members are the same whatever follows their closing brace. -/
theorem members?_extend {fuel fuel' : Nat} {cs rest : List Char} {members : List (Text × Json)}
    (h : members? fuel cs = some (members, rest)) (hfuel : fuel ≤ fuel') (more : List Char) :
    members? fuel' (cs ++ more) = some (members, rest ++ more) := by
  match fuel with
  | 0 => cases h
  | fuel + 1 =>
    obtain ⟨fuel', rfl, hfuel'⟩ := exists_fuel hfuel
    rw [members?_eq_some_iff] at h ⊢
    obtain ⟨start, name, afterName, value, j, afterValue, rfl, hname, hcolon, hvalue, hend⟩ := h
    have hstops : Stops afterValue := by
      rcases hend with ⟨hclosing, -⟩ | ⟨next, members', hcomma, -⟩
      · exact stops_of_skipBlanks hclosing (.inr (.inr rfl))
      · exact stops_of_skipBlanks hcomma (.inl rfl)
    refine ⟨start ++ more, name, afterName ++ more, value ++ more, j, afterValue ++ more, rfl,
      string?_extend hname more, skipBlanks_cons_extend hcolon more, ?_, ?_⟩
    · rw [skipBlanks_extend (ne_nil_of_value? hvalue)]
      exact value?_extend hvalue hfuel' (fun _ => hstops) more
    · rcases hend with ⟨hclosing, rfl⟩ | ⟨next, members', hcomma, hmembers, rfl⟩
      · exact .inl ⟨skipBlanks_cons_extend hclosing more, rfl⟩
      · refine .inr ⟨next ++ more, members', skipBlanks_cons_extend hcomma more, ?_, rfl⟩
        rw [skipBlanks_extend (ne_nil_of_members? hmembers)]
        exact members?_extend hmembers hfuel' more

end

/-! ### Main statements -/

/-- Behind a text that denotes a string, an array or an object there may stand blanks, and nothing
else. -/
theorem read?_append {j : Json} (h : read? cs = some j) (hj : ¬j.IsAtom) (more : List Char) :
    read? (cs ++ more) = if more.all isBlank then some j else none := by
  obtain ⟨rest, hvalue, hblank⟩ := read?_eq_some_iff.mp h
  have hfuel : cs.length + 1 ≤ (cs ++ more).length + 1 := by
    rw [List.length_append]
    omega
  have hwhole := value?_extend hvalue hfuel (fun hatom => absurd hatom hj) more
  have hrest : skipBlanks (rest ++ more) = skipBlanks more := by
    rw [skipBlanks, List.dropWhile_append, if_pos (by simpa [skipBlanks] using hblank)]
    rfl
  have hempty : (skipBlanks more).isEmpty = more.all isBlank := by
    rw [Bool.eq_iff_iff, List.isEmpty_iff, skipBlanks, List.dropWhile_eq_nil_iff, List.all_eq_true]
  rw [read?, skipBlanks_extend (ne_nil_of_value? hvalue), hwhole]
  simp only [Option.bind_eq_bind, Option.bind_some, hrest, hempty]

/-- What starts with a brace denotes an object, if it denotes anything. -/
theorem not_isAtom_of_brace {j : Json} (h : read? ('\x7b' :: cs) = some j) : ¬j.IsAtom := by
  obtain ⟨rest, hvalue, -⟩ := read?_eq_some_iff.mp h
  rw [skipBlanks_cons rfl] at hvalue
  rcases value?_eq_some_iff.mp hvalue with ⟨_, _, heq, -⟩ | ⟨_, _, heq, -⟩ |
    ⟨_, members, -, -, rfl⟩ | hatom
  · cases heq
  · cases heq
  · exact id
  · cases hatom

/-- When the end of the text of an object is missing, no text is left.  The text is the one from
brace to brace, since blanks at its end could be missing. -/
theorem read?_eq_none_of_prefix {j : Json} (h : read? ('\x7b' :: (cs ++ ['\x7d'])) = some j)
    {part : List Char} (hstart : part <+: '\x7b' :: (cs ++ ['\x7d']))
    (hne : part ≠ '\x7b' :: (cs ++ ['\x7d'])) : read? part = none := by
  obtain ⟨missing, hmissing⟩ := hstart
  rw [Option.eq_none_iff_forall_ne_some]
  intro k hk
  cases part with
  | nil => cases hk
  | cons c part =>
    obtain ⟨rfl, htail⟩ : c = '\x7b' ∧ part ++ missing = cs ++ ['\x7d'] :=
      List.cons.inj hmissing
    -- What is missing would be blank, but its last character is the closing brace.
    have hwhole := read?_append hk (not_isAtom_of_brace hk) missing
    rw [List.cons_append, htail, h] at hwhole
    have hblank : missing.all isBlank := by
      by_contra hblank
      rw [if_neg hblank] at hwhole
      cases hwhole
    rcases List.eq_nil_or_concat' missing with rfl | ⟨front, last, rfl⟩
    · rw [List.append_nil] at htail
      exact hne (congrArg _ htail)
    · rw [← List.append_assoc] at htail
      obtain ⟨-, hlast⟩ := List.append_inj' htail rfl
      obtain rfl := List.singleton_inj.mp hlast
      rw [List.all_append, Bool.and_eq_true] at hblank
      exact absurd hblank.2 (by decide)

end CloudEnvelope.Json
