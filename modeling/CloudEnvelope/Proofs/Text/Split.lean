import CloudEnvelope.Text.Basic
import Mathlib.Tactic.Common

/-!
# Texts split at a mark

A split at the first mark finds the part before it that is free of the mark
(`Text.splitFirst_eq_some_iff`), and leaves a text without the mark whole
(`Text.splitFirst_of_notMem`).  The part after the last mark is the one that is free of it
(`Text.afterLast?_eq_some_iff`).
-/

namespace CloudEnvelope.Text

variable {mark : Char} {t before after : Text}

/-- A name is found before the mark that ends it. -/
theorem splitFirst_append (hbefore : CodePoint.scalar mark ∉ before) (rest : Text) :
    splitFirst mark (before ++ .scalar mark :: rest) = (before, some rest) := by
  induction before with
  | nil => simp [splitFirst]
  | cons c before ih =>
    obtain ⟨hc, hbefore⟩ := not_or.mp (mt List.mem_cons.mpr hbefore)
    rw [List.cons_append, splitFirst, if_neg (Ne.symm hc), ih hbefore]

theorem splitFirst_of_notMem (h : CodePoint.scalar mark ∉ t) : splitFirst mark t = (t, none) := by
  induction t with
  | nil => rfl
  | cons c t ih =>
    obtain ⟨hc, ht⟩ := not_or.mp (mt List.mem_cons.mpr h)
    rw [splitFirst, if_neg (Ne.symm hc), ih ht]

/-- The first part goes on as long as the mark is not met. -/
theorem splitFirst_fst (mark : Char) (t : Text) :
    (splitFirst mark t).1 = t.takeWhile (· ≠ .scalar mark) := by
  induction t with
  | nil => rfl
  | cons c t ih =>
    rw [splitFirst]
    split
    · rename_i hc
      simp [hc]
    · rename_i hc
      simp [hc, ih]

theorem splitFirst_eq_some_iff : splitFirst mark t = (before, some after) ↔
    t = before ++ .scalar mark :: after ∧ CodePoint.scalar mark ∉ before := by
  constructor
  · intro h
    by_cases hmem : CodePoint.scalar mark ∈ t
    · obtain ⟨before', after', rfl, hbefore⟩ := List.eq_append_cons_of_mem hmem
      rw [splitFirst_append hbefore] at h
      cases h
      exact ⟨rfl, hbefore⟩
    · rw [splitFirst_of_notMem hmem] at h
      cases h
  · rintro ⟨rfl, hbefore⟩
    exact splitFirst_append hbefore after

theorem afterLast?_eq_some_iff : afterLast? mark t = some after ↔
    ∃ before, t = before ++ .scalar mark :: after ∧ CodePoint.scalar mark ∉ after := by
  -- The last mark is the first one from behind.
  have hreverse (before : Text) : t.reverse = after.reverse ++ .scalar mark :: before.reverse ↔
      t = before ++ .scalar mark :: after := by
    rw [← List.reverse_inj]
    simp
  have hsplit : afterLast? mark t = some after ↔
      ∃ rest, splitFirst mark t.reverse = (after.reverse, some rest) := by
    rw [afterLast?]
    rcases splitFirst mark t.reverse with ⟨found, _ | rest⟩
    · simp
    · simp [List.reverse_eq_iff]
  rw [hsplit]
  simp only [splitFirst_eq_some_iff, List.mem_reverse]
  constructor
  · rintro ⟨rest, h, hafter⟩
    exact ⟨rest.reverse, (hreverse _).mp (by rwa [List.reverse_reverse]), hafter⟩
  · rintro ⟨before, h, hafter⟩
    exact ⟨before.reverse, (hreverse _).mpr h, hafter⟩

end CloudEnvelope.Text
