import CloudEnvelope.Classifier
import CloudEnvelope.Proofs.Except
import CloudEnvelope.Proofs.OrderedMap
import Mathlib.Tactic.Common

/-!
# What classification does to headers

The outcome of a key decides alone what becomes of its header: it is among the extensions, among the
keys that are dropped, or neither (`Classifier.mem_removed_iff`).  The outcome itself is decided by
the first token whose body the key satisfies (`Classifier.outcome_eq_promoted_iff`).
-/

namespace CloudEnvelope

/-! ### Tokens -/

namespace HeaderPattern

/-- The key satisfies the body that a token spells, negated or not. -/
def tokenAccepts (token key : Text) : Bool := (parse token).toOption.any (·.accepts key)

/-- The token starts with the mark of negation. -/
def tokenNegates (token : Text) : Bool := token.head? = some (.scalar '!')

theorem tokenAccepts_of_parse {token : Text} {p : HeaderPattern} (h : parse token = .ok p)
    (key : Text) : tokenAccepts token key = p.accepts key := by
  rw [tokenAccepts, h]
  rfl

theorem negated_of_parse {token : Text} {p : HeaderPattern} (h : parse token = .ok p) :
    p.negated = tokenNegates token := by
  unfold parse at h
  split at h
  · obtain ⟨body, -, ⟨⟩⟩ := Except.bind_eq_ok_iff.mp h
    rfl
  · rename_i hmark
    obtain ⟨body, -, ⟨⟩⟩ := Except.bind_eq_ok_iff.mp h
    symm
    rw [tokenNegates, decide_eq_false_iff_not]
    cases token with
    | nil => simp
    | cons c rest =>
      rw [List.head?_cons, Option.some.injEq]
      rintro rfl
      exact hmark rest rfl

end HeaderPattern

namespace Classifier

theorem ofTokens_eq_ok_iff {tokens : List Text} {c : Classifier} :
    ofTokens tokens = .ok c ↔
      List.Forall₂ (fun token p => HeaderPattern.parse token = .ok p) tokens c.patterns := by
  rw [ofTokens, Except.bind_eq_ok_iff, ← Except.mapM_eq_ok_iff]
  constructor
  · rintro ⟨ps, hps, ⟨⟩⟩
    exact hps
  · intro h
    exact ⟨c.patterns, h, rfl⟩

/-- The first pattern that accepts a key is spelled by the first token whose body the key
satisfies. -/
theorem map_negated_find? {tokens : List Text} {ps : List HeaderPattern}
    (h : List.Forall₂ (fun token p => HeaderPattern.parse token = .ok p) tokens ps) (key : Text) :
    (ps.find? (·.accepts key)).map (·.negated)
      = (tokens.find? (HeaderPattern.tokenAccepts · key)).map HeaderPattern.tokenNegates := by
  induction h with
  | nil => rfl
  | cons hp _ ih =>
    rw [List.find?_cons, List.find?_cons, HeaderPattern.tokenAccepts_of_parse hp]
    split
    · rw [Option.map_some, Option.map_some, HeaderPattern.negated_of_parse hp]
    · exact ih

/-- A key is promoted exactly when the first token whose body it satisfies is not negated. -/
theorem outcome_eq_promoted_iff {tokens : List Text} {c : Classifier}
    (h : ofTokens tokens = .ok c) {key : Text} :
    c.outcome key = .promoted ↔
      ∃ token, tokens.find? (HeaderPattern.tokenAccepts · key) = some token ∧
        ¬HeaderPattern.tokenNegates token := by
  have hfind := map_negated_find? (ofTokens_eq_ok_iff.mp h) key
  rw [outcome]
  cases hp : c.patterns.find? (·.accepts key) with
  | none =>
    rw [hp, Option.map_none] at hfind
    simp [Option.map_eq_none_iff.mp hfind.symm]
  | some p =>
    rw [hp, Option.map_some] at hfind
    obtain ⟨token, htoken, hnegated⟩ := Option.map_eq_some_iff.mp hfind.symm
    simp [htoken, hnegated]

/-! ### Outcomes -/

/-- A key stays unclassified exactly when no pattern accepts it. -/
theorem outcome_eq_unclassified_iff {c : Classifier} {key : Text} :
    c.outcome key = .unclassified ↔ ∀ q ∈ c.patterns, ¬q.accepts key := by
  rw [← List.find?_eq_none, outcome]
  split
  · rename_i h
    simp [h]
  · rename_i p h
    rw [h]
    cases p.negated <;> simp

@[simp] theorem entries_extensions (c : Classifier) (headers : Headers) :
    (c.classify headers).extensions.entries
      = headers.entries.filter fun e => c.outcome e.1 = .promoted := rfl

/-- The keys that do not pass through are the classified keys of the headers. -/
theorem mem_removed_iff {c : Classifier} {headers : Headers} {key : Text} :
    key ∈ (c.classify headers).removed ↔ key ∈ headers.keys ∧ c.outcome key ≠ .unclassified := by
  have hextensions : key ∈ (c.classify headers).extensions.keys
      ↔ key ∈ headers.keys ∧ c.outcome key = .promoted := by
    rw [classify, OrderedMap.mem_keys_filter_iff, decide_eq_true_eq]
  have hexcluded : key ∈ (c.classify headers).excluded
      ↔ key ∈ headers.keys ∧ c.outcome key = .excluded := by
    rw [classify, List.mem_filter, decide_eq_true_eq]
  rw [Classification.removed, List.mem_append, hextensions, hexcluded, ← and_or_left]
  cases c.outcome key <;> simp

/-! ### Headers of one outcome -/

variable {c : Classifier} {headers selected : Headers} {o : Outcome} {key : Text} {v : Value}

/-- A header of an outcome is found among the headers of that outcome. -/
theorem get?_of_entries_eq
    (h : selected.entries = headers.entries.filter fun e => c.outcome e.1 = o)
    (hkey : c.outcome key = o) (hmem : (key, v) ∈ headers.entries) :
    selected.get? key = some v := by
  rw [OrderedMap.get?_eq_some_iff, h]
  exact List.mem_filter.mpr ⟨hmem, decide_eq_true hkey⟩

/-- The headers of an outcome have no key of another. -/
theorem notMem_keys_of_entries_eq
    (h : selected.entries = headers.entries.filter fun e => c.outcome e.1 = o)
    (hkey : c.outcome key ≠ o) : key ∉ selected.keys := by
  rw [OrderedMap.mem_keys_iff, h]
  rintro ⟨v, hmem⟩
  exact hkey (of_decide_eq_true (List.mem_filter.mp hmem).2)

end Classifier

end CloudEnvelope
