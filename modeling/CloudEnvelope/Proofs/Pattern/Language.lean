import CloudEnvelope.Proofs.Except
import CloudEnvelope.Proofs.Pattern

/-!
# The language of patterns

A token is a body, perhaps behind the mark of negation (`HeaderPattern.IsToken`).  A body is a
wildcard alone, or a fragment with a wildcard on one of its sides, on both or on none
(`HeaderPattern.IsBody`); wildcards stand nowhere else.  A key satisfies a body when it is the body
with some text in the place of each wildcard (`HeaderPattern.Fills`).

`HeaderPattern.parse_language`: exactly these tokens are parsed, the token is spelled again by its
pattern, and the pattern accepts the keys that fill the body of the token.
`HeaderPattern.overlaps_exact`: two patterns overlap exactly when one key fills the bodies of both
tokens.
-/

namespace CloudEnvelope

namespace HeaderPattern

/-! ### The grammar -/

/-- The sign that stands for any text. -/
def wildcard : CodePoint := .scalar '*'

/-- The mark of negation. -/
def negation : CodePoint := .scalar '!'

/-- A text that may stand between wildcards. -/
structure IsFragment (f : Text) : Prop where
  ne_nil : f ≠ []
  noWildcard : wildcard ∉ f
  noNegation : f.head? ≠ some negation

/-- A wildcard, or nothing. -/
def wildcardIf (present : Bool) : Text := if present then [wildcard] else []

/-- A wildcard alone, or a fragment that may have one in front of it and one behind it. -/
inductive IsBody : Text → Prop
  | any : IsBody [wildcard]
  | around {f : Text} (leading trailing : Bool) (h : IsFragment f) :
      IsBody (wildcardIf leading ++ (f ++ wildcardIf trailing))

/-- The token of a body, negated or not. -/
inductive IsToken : Bool → Text → Text → Prop
  | plain {body : Text} (h : IsBody body) : IsToken false body body
  | negated {body : Text} (h : IsBody body) : IsToken true body (negation :: body)

/-- The key is the body with some text in the place of each wildcard. -/
inductive Fills : Text → Text → Prop
  | nil : Fills [] []
  | cons {c : CodePoint} {body key : Text} (hc : c ≠ wildcard) (h : Fills body key) :
      Fills (c :: body) (c :: key)
  | wildcard {body key : Text} (filling : Text) (h : Fills body key) :
      Fills (wildcard :: body) (filling ++ key)

namespace IsFragment

variable {f : Text}

theorem head?_ne (h : IsFragment f) : f.head? ≠ some wildcard := fun heq =>
  h.noWildcard (List.mem_of_mem_head? heq)

theorem getLast?_ne (h : IsFragment f) : f.getLast? ≠ some wildcard := fun heq =>
  h.noWildcard (List.mem_of_getLast? heq)

end IsFragment

theorem isFragment_iff {f : Text} : IsFragment f ↔
    (f.isEmpty || f.contains wildcard) = false ∧ (f.head? == some negation) = false := by
  constructor
  · intro h
    simp [h.ne_nil, h.noWildcard, h.noNegation]
  · intro h
    simp only [Bool.or_eq_false_iff, List.isEmpty_eq_false_iff, List.contains_eq_mem,
      decide_eq_false_iff_not, beq_eq_false_iff_ne] at h
    exact ⟨h.1.1, h.1.2, h.2⟩

/-! ### Keys that fill a body -/

section Fills

variable {body key f : Text}

theorem fills_nil_iff : Fills [] key ↔ key = [] := by
  constructor
  · rintro ⟨⟩
    rfl
  · rintro rfl
    exact .nil

theorem fills_wildcard_iff :
    Fills (wildcard :: body) key ↔ ∃ filling rest, key = filling ++ rest ∧ Fills body rest := by
  constructor
  · intro h
    cases h with
    | cons hc _ => exact absurd rfl hc
    | wildcard filling h => exact ⟨filling, _, rfl, h⟩
  · rintro ⟨filling, rest, rfl, h⟩
    exact .wildcard filling h

/-- What is no wildcard stands for itself. -/
theorem fills_append_iff (hf : wildcard ∉ f) :
    Fills (f ++ body) key ↔ ∃ rest, key = f ++ rest ∧ Fills body rest := by
  induction f generalizing key with
  | nil => simp
  | cons c f ih =>
    rw [List.mem_cons, not_or] at hf
    constructor
    · intro h
      cases h with
      | cons _ h =>
        obtain ⟨rest, rfl, hrest⟩ := (ih hf.2).mp h
        exact ⟨rest, rfl, hrest⟩
      | wildcard => exact absurd rfl hf.1
    · rintro ⟨rest, rfl, hrest⟩
      exact .cons (Ne.symm hf.1) ((ih hf.2).mpr ⟨rest, rfl, hrest⟩)

theorem fills_any (key : Text) : Fills [wildcard] key :=
  fills_wildcard_iff.mpr ⟨key, [], (List.append_nil key).symm, .nil⟩

theorem fills_exactly_iff (hf : wildcard ∉ f) : Fills f key ↔ key = f := by
  have happend : Fills (f ++ []) key ↔ _ := fills_append_iff hf
  simpa [fills_nil_iff] using happend

theorem fills_start_iff (hf : wildcard ∉ f) : Fills (f ++ [wildcard]) key ↔ f <+: key := by
  rw [fills_append_iff hf]
  constructor
  · rintro ⟨rest, rfl, -⟩
    exact List.prefix_append f rest
  · rintro ⟨rest, rfl⟩
    exact ⟨rest, rfl, fills_any rest⟩

theorem fills_end_iff (hf : wildcard ∉ f) : Fills (wildcard :: f) key ↔ f <:+ key := by
  rw [fills_wildcard_iff]
  constructor
  · rintro ⟨filling, rest, rfl, hrest⟩
    rw [(fills_exactly_iff hf).mp hrest]
    exact List.suffix_append filling f
  · rintro ⟨filling, rfl⟩
    exact ⟨filling, f, rfl, (fills_exactly_iff hf).mpr rfl⟩

theorem fills_within_iff (hf : wildcard ∉ f) :
    Fills (wildcard :: (f ++ [wildcard])) key ↔ f <:+: key := by
  rw [fills_wildcard_iff, List.infix_iff_prefix_suffix]
  constructor
  · rintro ⟨filling, rest, rfl, hrest⟩
    exact ⟨rest, (fills_start_iff hf).mp hrest, List.suffix_append filling rest⟩
  · rintro ⟨rest, hstart, filling, rfl⟩
    exact ⟨filling, rest, rfl, (fills_start_iff hf).mpr hstart⟩

end Fills

end HeaderPattern

/-! ### Bodies -/

namespace Body

open HeaderPattern

/-- The fragment of the body, if it has one, may stand between wildcards. -/
def Spellable : Body → Prop
  | any => True
  | exactly f | startingWith f | endingWith f | containing f => IsFragment f

/-- The keys that a body accepts are those that fill it. -/
theorem accepts_iff_fills {b : Body} (h : b.Spellable) {key : Text} :
    b.accepts key ↔ Fills b.spelled key := by
  cases b with
  | any => exact iff_of_true rfl (fills_any key)
  | exactly f => exact beq_iff_eq.trans (fills_exactly_iff h.noWildcard).symm
  | startingWith f => exact Text.startsWith_iff.trans (fills_start_iff h.noWildcard).symm
  | endingWith f => exact Text.endsWith_iff.trans (fills_end_iff h.noWildcard).symm
  | containing f => exact Text.holds_iff.trans (fills_within_iff h.noWildcard).symm

/-- The body of a fragment and the wildcards that stand around it. -/
def around (leading trailing : Bool) (f : Text) : Body :=
  match leading, trailing with
  | true, true => containing f
  | true, false => endingWith f
  | false, true => startingWith f
  | false, false => exactly f

/-- Every body but the wildcard alone has a fragment. -/
theorem eq_any_or_around (b : Body) :
    b = any ∨ ∃ leading trailing f, b = around leading trailing f := by
  cases b with
  | any => exact .inl rfl
  | exactly f => exact .inr ⟨false, false, f, rfl⟩
  | startingWith f => exact .inr ⟨false, true, f, rfl⟩
  | endingWith f => exact .inr ⟨true, false, f, rfl⟩
  | containing f => exact .inr ⟨true, true, f, rfl⟩

theorem spelled_around (leading trailing : Bool) (f : Text) :
    (around leading trailing f).spelled = wildcardIf leading ++ (f ++ wildcardIf trailing) := by
  cases leading <;> cases trailing
  · exact (List.append_nil f).symm
  · rfl
  · exact congrArg _ (List.append_nil f).symm
  · rfl

theorem spellable_around {leading trailing : Bool} {f : Text} :
    (around leading trailing f).Spellable ↔ IsFragment f := by
  cases leading <;> cases trailing <;> exact Iff.rfl

/-- The spellings of bodies are those that the grammar has. -/
theorem isBody_iff {text : Text} : IsBody text ↔ ∃ b : Body, b.Spellable ∧ b.spelled = text := by
  constructor
  · intro h
    cases h with
    | any => exact ⟨any, trivial, rfl⟩
    | around leading trailing h =>
      exact ⟨around leading trailing _, spellable_around.mpr h, spelled_around leading trailing _⟩
  · rintro ⟨b, h, rfl⟩
    rcases eq_any_or_around b with rfl | ⟨leading, trailing, f, rfl⟩
    · exact .any
    · rw [spelled_around]
      exact .around leading trailing (spellable_around.mp h)

/-! ### Parsing a body -/

/-- The text without the wildcards at its ends. -/
def trimmed (text : Text) : Text :=
  let inner := if text.head? == some wildcard then text.drop 1 else text
  if text.getLast? == some wildcard then inner.dropLast else inner

theorem parse_eq (token text : Text) : parse token text =
    if text = [] then .error (.emptyBody token)
    else if text = [wildcard] then .ok any
    else if (trimmed text).isEmpty || (trimmed text).contains wildcard then
      .error (.misplacedWildcard token)
    else if (trimmed text).head? == some negation then .error (.misplacedNegation token)
    else .ok (around (text.head? == some wildcard) (text.getLast? == some wildcard)
      (trimmed text)) := rfl

/-- The wildcards at the ends of a text are the ones that are taken off, unless the text is a
wildcard alone, which has one at either end. -/
theorem around_trimmed {text : Text} (h : text ≠ [wildcard]) :
    wildcardIf (text.head? == some wildcard) ++
      (trimmed text ++ wildcardIf (text.getLast? == some wildcard)) = text := by
  have hlast : ∀ t : Text, t.getLast? = some wildcard → t.dropLast ++ [wildcard] = t := fun t ht =>
    List.dropLast_append_getLast? wildcard ht
  rw [trimmed]
  by_cases htrailing : text.getLast? = some wildcard
  · rw [beq_iff_eq.mpr htrailing]
    by_cases hleading : text.head? = some wildcard
    · rw [beq_iff_eq.mpr hleading]
      obtain ⟨rest, rfl⟩ := List.head?_eq_some_iff.mp hleading
      -- One wildcard would be taken off at both ends.
      have hrest : rest ≠ [] := fun hnil => h (congrArg _ hnil)
      rw [List.getLast?_cons_of_ne_nil hrest] at htrailing
      exact congrArg _ (hlast rest htrailing)
    · rw [beq_eq_false_iff_ne.mpr hleading]
      exact hlast text htrailing
  · rw [beq_eq_false_iff_ne.mpr htrailing]
    by_cases hleading : text.head? = some wildcard
    · rw [beq_iff_eq.mpr hleading]
      obtain ⟨rest, rfl⟩ := List.head?_eq_some_iff.mp hleading
      exact congrArg _ (List.append_nil rest)
    · rw [beq_eq_false_iff_ne.mpr hleading]
      exact List.append_nil text

section Around

variable (leading trailing : Bool) {f : Text}

theorem head?_around (h : IsFragment f) :
    ((wildcardIf leading ++ (f ++ wildcardIf trailing)).head? == some wildcard) = leading := by
  cases leading with
  | false =>
    show ((f ++ wildcardIf trailing).head? == some wildcard) = false
    rw [List.head?_append_of_ne_nil _ h.ne_nil]
    exact beq_eq_false_iff_ne.mpr h.head?_ne
  | true => rfl

theorem getLast?_around (h : IsFragment f) :
    ((wildcardIf leading ++ (f ++ wildcardIf trailing)).getLast? == some wildcard) = trailing := by
  cases trailing with
  | false =>
    show ((wildcardIf leading ++ (f ++ [])).getLast? == some wildcard) = false
    rw [List.append_nil, List.getLast?_append_of_ne_nil _ h.ne_nil]
    exact beq_eq_false_iff_ne.mpr h.getLast?_ne
  | true =>
    rw [← List.append_assoc, beq_iff_eq]
    exact List.getLast?_concat

theorem trimmed_around (h : IsFragment f) :
    trimmed (wildcardIf leading ++ (f ++ wildcardIf trailing)) = f := by
  rw [trimmed, head?_around leading trailing h, getLast?_around leading trailing h]
  cases leading <;> cases trailing <;> simp [wildcardIf]

theorem ne_around (h : IsFragment f) :
    wildcardIf leading ++ (f ++ wildcardIf trailing) ≠ [] ∧
      wildcardIf leading ++ (f ++ wildcardIf trailing) ≠ [wildcard] := by
  have htrimmed := trimmed_around leading trailing h
  -- Of the empty text and of a wildcard alone nothing is left.
  constructor
  all_goals
    intro heq
    rw [heq] at htrimmed
    exact h.ne_nil htrimmed.symm

end Around

/-- The bodies that are parsed are those that spell the text. -/
theorem parse_eq_ok_iff {token text : Text} {b : Body} :
    parse token text = .ok b ↔ b.Spellable ∧ b.spelled = text := by
  constructor
  · intro h
    rw [parse_eq] at h
    split_ifs at h with hnil hany hwildcard hnegation
    · cases h
      exact ⟨trivial, hany.symm⟩
    · cases h
      rw [spellable_around, spelled_around]
      refine ⟨isFragment_iff.mpr ⟨?_, ?_⟩, around_trimmed hany⟩
      · exact Bool.eq_false_iff.mpr hwildcard
      · exact Bool.eq_false_iff.mpr hnegation
  · rintro ⟨h, rfl⟩
    rcases eq_any_or_around b with rfl | ⟨leading, trailing, f, rfl⟩
    · rfl
    · rw [spellable_around] at h
      obtain ⟨hnil, hany⟩ := ne_around leading trailing h
      obtain ⟨hwildcard, hnegation⟩ := isFragment_iff.mp h
      rw [spelled_around, parse_eq, if_neg hnil, if_neg hany, trimmed_around leading trailing h,
        head?_around leading trailing h, getLast?_around leading trailing h, hwildcard, hnegation]
      rfl

theorem issue_of_parse {token text : Text} {issue : ConfigurationIssue}
    (h : parse token text = .error issue) :
    issue ∈ [ConfigurationIssue.emptyBody token, .misplacedWildcard token,
      .misplacedNegation token] := by
  rw [parse_eq] at h
  split_ifs at h <;> cases h <;> simp

/-- A body does not start with the mark of negation. -/
theorem head?_spelled_ne {b : Body} (h : b.Spellable) : b.spelled.head? ≠ some negation := by
  rcases eq_any_or_around b with rfl | ⟨leading, trailing, f, rfl⟩
  · decide
  · rw [spellable_around] at h
    rw [spelled_around]
    cases leading with
    | false =>
      show (f ++ wildcardIf trailing).head? ≠ some negation
      rw [List.head?_append_of_ne_nil _ h.ne_nil]
      exact h.noNegation
    | true => exact fun heq => absurd (Option.some.inj heq) (by decide)

end Body

/-! ### Tokens -/

namespace HeaderPattern

variable {token : Text} {allow : Bool} {p : HeaderPattern}

theorem parse_of_ne {text : Text} (h : text.head? ≠ some negation) (allow : Bool) :
    parse text allow = Body.parse text text >>= fun body => .ok ⟨false, body⟩ := by
  rw [parse]
  rintro rest rfl
  exact h rfl

/-- The patterns that are parsed are those that spell the token. -/
theorem parse_eq_ok_iff :
    parse token allow = .ok p ↔ p.body.Spellable ∧ p.token = token ∧ (p.negated → allow) := by
  constructor
  · intro h
    unfold parse at h
    split at h
    · split at h
      · rename_i hallow
        obtain ⟨body, hbody, ⟨⟩⟩ := Except.bind_eq_ok_iff.mp h
        obtain ⟨hspellable, rfl⟩ := Body.parse_eq_ok_iff.mp hbody
        exact ⟨hspellable, rfl, fun _ => hallow⟩
      · cases h
    · obtain ⟨body, hbody, ⟨⟩⟩ := Except.bind_eq_ok_iff.mp h
      obtain ⟨hspellable, rfl⟩ := Body.parse_eq_ok_iff.mp hbody
      exact ⟨hspellable, rfl, fun hnegated => absurd hnegated Bool.false_ne_true⟩
  · rintro ⟨hspellable, rfl, hallow⟩
    obtain ⟨negated, body⟩ := p
    have hbody : ∀ token, Body.parse token body.spelled = .ok body := fun token =>
      Body.parse_eq_ok_iff.mpr ⟨hspellable, rfl⟩
    cases negated with
    | false =>
      -- Without a mark the token is a body, which does not start with one either.
      show parse body.spelled allow = _
      rw [parse_of_ne (Body.head?_spelled_ne hspellable), hbody]
      rfl
    | true =>
      show parse (negation :: body.spelled) allow = _
      rw [hallow rfl]
      show Body.parse _ body.spelled >>= _ = _
      rw [hbody]
      rfl

/-- The tokens of spellable patterns are those that the grammar has. -/
theorem isToken_iff {negated : Bool} {body : Text} : IsToken negated body token ↔
    ∃ b : Body, b.Spellable ∧ b.spelled = body ∧ (⟨negated, b⟩ : HeaderPattern).token = token := by
  constructor
  · intro h
    cases h with
    | plain h =>
      obtain ⟨b, hb, rfl⟩ := Body.isBody_iff.mp h
      exact ⟨b, hb, rfl, rfl⟩
    | negated h =>
      obtain ⟨b, hb, rfl⟩ := Body.isBody_iff.mp h
      exact ⟨b, hb, rfl, rfl⟩
  · rintro ⟨b, hb, rfl, rfl⟩
    cases negated with
    | false => exact .plain (Body.isBody_iff.mpr ⟨b, hb, rfl⟩)
    | true => exact .negated (Body.isBody_iff.mpr ⟨b, hb, rfl⟩)

theorem isToken_of_parse (h : parse token allow = .ok p) :
    IsToken p.negated p.body.spelled token ∧ ∀ key, p.accepts key ↔ Fills p.body.spelled key := by
  obtain ⟨hspellable, htoken, -⟩ := parse_eq_ok_iff.mp h
  exact ⟨isToken_iff.mpr ⟨p.body, hspellable, rfl, htoken⟩, fun key =>
    Body.accepts_iff_fills hspellable⟩

theorem issue_of_parse {issue : ConfigurationIssue} (h : parse token allow = .error issue) :
    issue ∈ [ConfigurationIssue.negationNotAllowed token, .emptyBody token,
      .misplacedWildcard token, .misplacedNegation token] := by
  have hbody : ∀ {text : Text} {negated : Bool},
      (Body.parse token text >>= fun body => .ok (⟨negated, body⟩ : HeaderPattern))
        = .error issue → issue ∈ [ConfigurationIssue.emptyBody token, .misplacedWildcard token,
          .misplacedNegation token] := by
    intro text negated h
    rcases Except.bind_eq_error_iff.mp h with h | ⟨body, -, ⟨⟩⟩
    exact Body.issue_of_parse h
  unfold parse at h
  split at h
  · split at h
    · exact List.mem_cons_of_mem _ (hbody h)
    · cases h
      exact List.mem_cons_self
  · exact List.mem_cons_of_mem _ (hbody h)

/-! ### Main statements -/

/-- A token is parsed exactly when the grammar has it, and negation is allowed if it is negated; of
any other token the failure names it.  The pattern of a token spells the token again, and accepts
the keys that are the body of the token with some text in the place of each wildcard. -/
theorem parse_language (token : Text) (allow : Bool) :
    ((∃ p, parse token allow = .ok p) ↔
        ∃ negated body, IsToken negated body token ∧ (negated → allow)) ∧
      (∀ p, parse token allow = .ok p → p.token = token ∧
        ∃ body, IsToken p.negated body token ∧ ∀ key, p.accepts key ↔ Fills body key) ∧
      ∀ issue, parse token allow = .error issue →
        (Failure.configuration issue).kind? = some .configuration ∧
        issue ∈ [ConfigurationIssue.negationNotAllowed token, .emptyBody token,
          .misplacedWildcard token, .misplacedNegation token] := by
  refine ⟨⟨?_, ?_⟩, ?_, fun issue h => ⟨rfl, issue_of_parse h⟩⟩
  · rintro ⟨p, h⟩
    exact ⟨p.negated, p.body.spelled, (isToken_of_parse h).1, (parse_eq_ok_iff.mp h).2.2⟩
  · rintro ⟨negated, body, htoken, hallow⟩
    obtain ⟨b, hspellable, -, rfl⟩ := isToken_iff.mp htoken
    exact ⟨⟨negated, b⟩, parse_eq_ok_iff.mpr ⟨hspellable, rfl, hallow⟩⟩
  · intro p h
    exact ⟨(parse_eq_ok_iff.mp h).2.1, p.body.spelled, isToken_of_parse h⟩

example : parse "!*ab*" = .ok ⟨true, .containing "ab"⟩ := by rfl

example : parse "a*b" = .error (.misplacedWildcard "a*b") := by rfl

/-- Two patterns that are parsed overlap exactly when some key is accepted by both, which is one
that fills the bodies of both tokens.  So it does not matter which of them comes first. -/
theorem overlaps_exact {s t : Text} {a b : Bool} {p q : HeaderPattern} (hp : parse s a = .ok p)
    (hq : parse t b = .ok q) :
    (p.overlaps q ↔ ∃ key, p.accepts key ∧ q.accepts key) ∧ p.overlaps q = q.overlaps p ∧
      ∃ body body', IsToken p.negated body s ∧ IsToken q.negated body' t ∧
        (p.overlaps q ↔ ∃ key, Fills body key ∧ Fills body' key) := by
  obtain ⟨hs, hfills⟩ := isToken_of_parse hp
  obtain ⟨ht, hfills'⟩ := isToken_of_parse hq
  refine ⟨overlaps_iff, ?_, p.body.spelled, q.body.spelled, hs, ht, ?_⟩
  · rw [Bool.eq_iff_iff, overlaps_iff, overlaps_iff]
    exact exists_congr fun key => and_comm
  · rw [overlaps_iff]
    exact exists_congr fun key => and_congr (hfills key) (hfills' key)

/-- A start and an end share a key, and two starts that differ share none. -/
theorem overlaps_exact_starts :
    parse "x-*" false = .ok ⟨false, .startingWith "x-"⟩ ∧
      parse "!*id" = .ok ⟨true, .endingWith "id"⟩ ∧
      parse "y*" false = .ok ⟨false, .startingWith "y"⟩ ∧
      (∃ key, (⟨false, .startingWith "x-"⟩ : HeaderPattern).accepts key ∧
        (⟨true, .endingWith "id"⟩ : HeaderPattern).accepts key) ∧
      ¬∃ key, (⟨false, .startingWith "x-"⟩ : HeaderPattern).accepts key ∧
        (⟨false, .startingWith "y"⟩ : HeaderPattern).accepts key := by
  have hx : parse "x-*" false = .ok ⟨false, .startingWith "x-"⟩ := by rfl
  have hid : parse "!*id" = .ok ⟨true, .endingWith "id"⟩ := by rfl
  have hy : parse "y*" false = .ok ⟨false, .startingWith "y"⟩ := by rfl
  refine ⟨hx, hid, hy, (overlaps_exact hx hid).1.mp rfl, ?_⟩
  rw [← (overlaps_exact hx hy).1]
  decide

end HeaderPattern

end CloudEnvelope
