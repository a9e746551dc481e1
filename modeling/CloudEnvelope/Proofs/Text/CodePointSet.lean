import CloudEnvelope.Text.Basic
import CloudEnvelope.Text.CodePointSet

/-!
# Sets of code points, run by run

The boundaries of a set come in pairs: the first number of a run of members, and the first number
behind the run.  What a check finds of every run (`CodePointSet.allRuns`) holds of the run that a
member stands in (`CodePointSet.exists_run`), so that sets are compared by their boundaries instead
of by their members.
-/

namespace CloudEnvelope

/-- Code points are told apart by their numbers. -/
theorem CodePoint.toNat_inj {c d : CodePoint} : c.toNat = d.toNat ↔ c = d := by
  refine ⟨fun h => ?_, congrArg toNat⟩
  have hsame := congrArg ofNat? h
  rwa [ofNat?_toNat, ofNat?_toNat, Option.some.injEq] at hsame

namespace CodePointSet

/-- Every run passes a check of its first number and the first number behind it.  A run without an
end passes none. -/
def allRuns (check : Nat → Nat → Bool) : List Nat → Bool
  | [] => true
  | [_] => false
  | first :: next :: rest => check first next && allRuns check rest

/-- A member stands in a run that passes the check. -/
theorem exists_run {check : Nat → Nat → Bool} {s : CodePointSet}
    (h : allRuns check s.boundaries) {n : Nat} (hn : s.contains n) :
    ∃ first next, check first next ∧ first ≤ n ∧ n < next := by
  rw [contains] at hn
  generalize s.boundaries = boundaries at h hn
  fun_induction allRuns check boundaries with
  | case1 => cases hn
  | case2 => cases h
  | case3 first next rest ih =>
    rw [Bool.and_eq_true] at h
    rw [member, member] at hn
    split at hn
    · cases hn
    · rename_i hfirst
      split at hn
      · rename_i hnext
        exact ⟨first, next, h.1, Nat.le_of_not_lt hfirst, hnext⟩
      · rw [Bool.not_not] at hn
        exact ih h.2 hn

end CodePointSet

end CloudEnvelope
