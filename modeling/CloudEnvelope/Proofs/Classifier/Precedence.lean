import CloudEnvelope.Proofs.Classifier
import Mathlib.Data.List.Forall2

/-!
# Which token decides

The outcome of a key is made by going through the patterns: each is asked only while the key stays
unclassified (`Classifier.outcome_eq_foldl`).  So the outcomes of two lists of tokens, one after the
other, are put together by `Outcome.otherwise`, and what stands behind a token that a key satisfies
does not matter to the key (`Classifier.outcome_precedence`).

Headers are gone through in the same way: a promoted header adds an extension, an excluded one adds
its key to those that are dropped (`Classifier.classify_eq_foldl`).
-/

namespace CloudEnvelope

/-! ### Outcomes one after the other -/

namespace Outcome

/-- The outcome, or another in its place when the key stays unclassified. -/
def otherwise (o other : Outcome) : Outcome := if o = .unclassified then other else o

@[simp] theorem unclassified_otherwise (o : Outcome) : unclassified.otherwise o = o := rfl

@[simp] theorem otherwise_unclassified (o : Outcome) : o.otherwise unclassified = o := by
  cases o <;> rfl

theorem otherwise_assoc (o o' o'' : Outcome) :
    (o.otherwise o').otherwise o'' = o.otherwise (o'.otherwise o'') := by
  cases o <;> rfl

theorem otherwise_of_ne {o : Outcome} (h : o ≠ .unclassified) (other : Outcome) :
    o.otherwise other = o :=
  if_neg h

end Outcome

namespace HeaderPattern

/-- The outcome that a pattern decides on its own. -/
def verdict (p : HeaderPattern) (key : Text) : Outcome :=
  if p.accepts key then if p.negated then .excluded else .promoted else .unclassified

theorem verdict_ne {p : HeaderPattern} {key : Text} (h : p.accepts key) :
    p.verdict key ≠ .unclassified := by
  rw [verdict, if_pos h]
  split <;> simp

end HeaderPattern

namespace Classifier

variable {a b c : Classifier} {start rest rest' : List Text} {token key : Text}

/-! ### The loop over the patterns -/

/-- A pattern is asked when those before it have left the key unclassified. -/
def step (key : Text) (o : Outcome) (p : HeaderPattern) : Outcome := o.otherwise (p.verdict key)

theorem outcome_cons (p : HeaderPattern) (ps : List HeaderPattern) (key : Text) :
    outcome ⟨p :: ps⟩ key = (p.verdict key).otherwise (outcome ⟨ps⟩ key) := by
  rw [outcome, List.find?_cons]
  by_cases hp : p.accepts key
  · rw [hp, Outcome.otherwise_of_ne (HeaderPattern.verdict_ne hp), HeaderPattern.verdict,
      if_pos hp]
  · rw [HeaderPattern.verdict, if_neg hp, Outcome.unclassified_otherwise,
      Bool.eq_false_iff.mpr hp]
    rfl

/-- Patterns go on from the outcome that is there. -/
theorem foldl_step (ps : List HeaderPattern) (o : Outcome) :
    ps.foldl (step key) o = o.otherwise (outcome ⟨ps⟩ key) := by
  induction ps generalizing o with
  | nil => exact (Outcome.otherwise_unclassified o).symm
  | cons p ps ih => rw [List.foldl_cons, ih, step, Outcome.otherwise_assoc, outcome_cons]

/-- The outcome is what the loop over the patterns ends with. -/
theorem outcome_eq_foldl (c : Classifier) (key : Text) :
    c.outcome key = c.patterns.foldl (step key) .unclassified := by
  rw [foldl_step, Outcome.unclassified_otherwise]

theorem outcome_append (ps qs : List HeaderPattern) (key : Text) :
    outcome ⟨ps ++ qs⟩ key = (outcome ⟨ps⟩ key).otherwise (outcome ⟨qs⟩ key) := by
  rw [outcome_eq_foldl, List.foldl_append, foldl_step, foldl_step, Outcome.unclassified_otherwise]

/-! ### Lists of tokens -/

theorem ofTokens_append_iff : ofTokens (start ++ rest) = .ok c ↔
    ∃ a b, ofTokens start = .ok a ∧ ofTokens rest = .ok b ∧ c = ⟨a.patterns ++ b.patterns⟩ := by
  constructor
  · intro h
    rw [ofTokens, List.mapM_append] at h
    obtain ⟨ps, hps, ⟨⟩⟩ := Except.bind_eq_ok_iff.mp h
    obtain ⟨as, has, hps⟩ := Except.bind_eq_ok_iff.mp hps
    obtain ⟨bs, hbs, ⟨⟩⟩ := Except.bind_eq_ok_iff.mp hps
    exact ⟨⟨as⟩, ⟨bs⟩, Except.bind_eq_ok_iff.mpr ⟨as, has, rfl⟩,
      Except.bind_eq_ok_iff.mpr ⟨bs, hbs, rfl⟩, rfl⟩
  · rintro ⟨a, b, ha, hb, rfl⟩
    exact ofTokens_eq_ok_iff.mpr
      (List.rel_append (ofTokens_eq_ok_iff.mp ha) (ofTokens_eq_ok_iff.mp hb))

/-- A token that a key satisfies decides its outcome, if none in front of it does. -/
theorem outcome_of_tokenAccepts (h : ofTokens (start ++ token :: rest) = .ok c)
    (htoken : HeaderPattern.tokenAccepts token key) :
    ∃ a p, ofTokens start = .ok a ∧ HeaderPattern.parse token = .ok p ∧
      c.outcome key = (a.outcome key).otherwise (p.verdict key) := by
  obtain ⟨a, b, ha, hb, rfl⟩ := ofTokens_append_iff.mp h
  obtain ⟨p, qs, hp, -, hpatterns⟩ := List.forall₂_cons_left_iff.mp (ofTokens_eq_ok_iff.mp hb)
  rw [HeaderPattern.tokenAccepts_of_parse hp] at htoken
  refine ⟨a, p, ha, hp, ?_⟩
  -- After the token the key is not unclassified any more, so the rest is not asked.
  rw [hpatterns, outcome_append, outcome_cons,
    Outcome.otherwise_of_ne (HeaderPattern.verdict_ne htoken)]

/-- What stands behind a token that a key satisfies does not matter to the key. -/
theorem outcome_eq_of_tokenAccepts (ha : ofTokens (start ++ token :: rest) = .ok a)
    (hc : ofTokens (start ++ token :: rest') = .ok c)
    (htoken : HeaderPattern.tokenAccepts token key) : c.outcome key = a.outcome key := by
  obtain ⟨front, p, hfront, hp, houtcome⟩ := outcome_of_tokenAccepts ha htoken
  obtain ⟨front', p', hfront', hp', houtcome'⟩ := outcome_of_tokenAccepts hc htoken
  obtain rfl := Except.ok.inj (hfront.symm.trans hfront')
  obtain rfl := Except.ok.inj (hp.symm.trans hp')
  rw [houtcome, houtcome']

/-! ### The loop over the headers -/

/-- What a header adds to a classification. -/
def sort (c : Classifier) (r : Classification) (e : Text × Value) : Classification :=
  match c.outcome e.1 with
  | .promoted => ⟨r.extensions.insert e.1 e.2, r.excluded⟩
  | .excluded => ⟨r.extensions, r.excluded ++ [e.1]⟩
  | .unclassified => r

theorem entries_sort {r : Classification} {e : Text × Value} (h : e.1 ∉ r.extensions.keys) :
    (c.sort r e).extensions.entries
      = r.extensions.entries ++ [e].filter fun e => c.outcome e.1 = .promoted := by
  unfold sort
  cases ho : c.outcome e.1 with
  | promoted => simp [ho, OrderedMap.entries_insert_of_notMem h]
  | excluded => simp [ho]
  | unclassified => simp [ho]

theorem excluded_sort (c : Classifier) (r : Classification) (e : Text × Value) :
    (c.sort r e).excluded = r.excluded ++ [e.1].filter fun key => c.outcome key = .excluded := by
  unfold sort
  cases ho : c.outcome e.1 with
  | promoted => simp [ho]
  | excluded => simp [ho]
  | unclassified => simp [ho]

/-- Headers with keys that differ add the promoted ones to the extensions and the keys of the
excluded ones to the keys that are dropped, both in order. -/
theorem foldl_sort {r : Classification} {es : List (Text × Value)}
    (h : ((r.extensions.entries ++ es).map (·.1)).Nodup) :
    (es.foldl c.sort r).extensions.entries
        = r.extensions.entries ++ (es.filter fun e => c.outcome e.1 = .promoted) ∧
      (es.foldl c.sort r).excluded
        = r.excluded ++ (es.map (·.1)).filter fun key => c.outcome key = .excluded := by
  induction es generalizing r with
  | nil => exact ⟨(List.append_nil _).symm, (List.append_nil _).symm⟩
  | cons e es ih =>
    have hfresh : e.1 ∉ r.extensions.keys := by
      rw [List.map_append, List.map_cons, List.nodup_append] at h
      intro hmem
      exact h.2.2 e.1 hmem e.1 List.mem_cons_self rfl
    have hentries := entries_sort (c := c) hfresh
    have hnodup : (((c.sort r e).extensions.entries ++ es).map (·.1)).Nodup := by
      rw [hentries, List.append_assoc]
      refine h.sublist (List.Sublist.map _ ((List.Sublist.refl _).append ?_))
      exact (List.filter_sublist (l := [e])).append (List.Sublist.refl es)
    obtain ⟨hextensions, hexcluded⟩ := ih hnodup
    rw [List.foldl_cons, hextensions, hexcluded, hentries, excluded_sort, List.append_assoc,
      List.append_assoc, ← List.filter_append, ← List.filter_append]
    exact ⟨rfl, rfl⟩

/-- A classification is what the loop over the headers ends with. -/
theorem classify_eq_foldl (c : Classifier) (headers : Headers) :
    c.classify headers = headers.entries.foldl c.sort ⟨.empty, []⟩ := by
  obtain ⟨hextensions, hexcluded⟩ := foldl_sort (c := c) (r := ⟨.empty, []⟩) headers.nodup
  have hmap : (c.classify headers).extensions
      = (headers.entries.foldl c.sort ⟨.empty, []⟩).extensions :=
    OrderedMap.eq_of_entries hextensions.symm
  show Classification.mk (c.classify headers).extensions (c.classify headers).excluded = _
  rw [hmap]
  exact congrArg (Classification.mk _) hexcluded.symm

/-- The classification has the headers by the outcomes of their keys. -/
structure Sorts (c : Classifier) (headers : Headers) (r : Classification) : Prop where
  extensions : r.extensions.entries = headers.entries.filter fun e => c.outcome e.1 = .promoted
  mem_excluded : ∀ key, key ∈ r.excluded ↔ key ∈ headers.keys ∧ c.outcome key = .excluded
  disjoint : ∀ key ∈ r.extensions.keys, key ∉ r.excluded
  mem_removed : ∀ key, key ∈ r.removed ↔ key ∈ headers.keys ∧ c.outcome key ≠ .unclassified

theorem sorts_classify (c : Classifier) (headers : Headers) :
    Sorts c headers (c.classify headers) where
  extensions := entries_extensions c headers
  mem_excluded key := by rw [classify, List.mem_filter, decide_eq_true_eq]
  disjoint key hextension hexcluded := by
    rw [classify, List.mem_filter, decide_eq_true_eq] at hexcluded
    refine notMem_keys_of_entries_eq (entries_extensions c headers) ?_ hextension
    rw [hexcluded.2]
    decide
  mem_removed key := mem_removed_iff

/-! ### Main statement -/

/-- An outcome is what the loop over the patterns ends with.  Of two lists of tokens that are taken,
the two together are taken as well, and give each key the outcome that the first list gives it, or
that of the second if the first leaves it unclassified.  So a key that satisfies a token has the
same outcome whatever stands behind this token.  A classification is what the loop over the headers
ends with, and has them by the outcomes of their keys. -/
theorem outcome_precedence {A B : List Text} (ha : ofTokens A = .ok a) (hb : ofTokens B = .ok b) :
    (∀ key, a.outcome key = a.patterns.foldl (step key) .unclassified) ∧
      (∃ c, ofTokens (A ++ B) = .ok c ∧
        ∀ key, c.outcome key = (a.outcome key).otherwise (b.outcome key)) ∧
      (∀ start token rest rest' key c, A = start ++ token :: rest →
        HeaderPattern.tokenAccepts token key → ofTokens (start ++ token :: rest') = .ok c →
        c.outcome key = a.outcome key) ∧
      ∀ headers, a.classify headers = headers.entries.foldl a.sort ⟨.empty, []⟩ ∧
        Sorts a headers (a.classify headers) := by
  refine ⟨outcome_eq_foldl a, ⟨⟨a.patterns ++ b.patterns⟩, ?_, ?_⟩, ?_, fun headers =>
    ⟨classify_eq_foldl a headers, sorts_classify a headers⟩⟩
  · exact ofTokens_append_iff.mpr ⟨a, b, ha, hb, rfl⟩
  · exact outcome_append a.patterns b.patterns
  · rintro start token rest rest' key c rfl htoken hc
    exact outcome_eq_of_tokenAccepts ha hc htoken

theorem outcome_precedence_secret :
    ∃ a b, ofTokens ["x-*", "!x-secret"] = .ok a ∧ ofTokens ["!*"] = .ok b ∧
      ∃ c, ofTokens ["x-*", "!x-secret", "!*"] = .ok c ∧ c.outcome "x-secret" = .promoted ∧
        c.outcome "host" = .excluded := by
  have ha : ofTokens ["x-*", "!x-secret"]
      = .ok ⟨[⟨false, .startingWith "x-"⟩, ⟨true, .exactly "x-secret"⟩]⟩ := by rfl
  have hb : ofTokens ["!*"] = .ok ⟨[⟨true, .any⟩]⟩ := by rfl
  obtain ⟨-, ⟨c, hc, houtcome⟩, -, -⟩ := outcome_precedence ha hb
  exact ⟨_, _, ha, hb, c, hc, houtcome _, houtcome _⟩

end Classifier

end CloudEnvelope
