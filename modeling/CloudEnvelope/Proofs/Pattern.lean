import CloudEnvelope.Pattern
import Mathlib.Tactic.Common

/-!
# Keys that satisfy two patterns

`HeaderPattern.overlaps_iff`: two patterns overlap exactly when they share a key, whatever their
shapes.  Bodies of different shapes overlap by definition unless one asks for a single key, and
share their two fragments put together; two that ask for the same end of a key have fragments of
which one continues the other.
-/

namespace CloudEnvelope

namespace Text

theorem startsWith_iff {t start : Text} : t.startsWith start ↔ start <+: t :=
  List.isPrefixOf_iff_prefix

theorem endsWith_iff {t final : Text} : t.endsWith final ↔ final <:+ t :=
  List.isSuffixOf_iff_suffix

theorem holds_iff {t fragment : Text} : t.holds fragment ↔ fragment <:+: t := by
  induction t with
  | nil => simp [holds]
  | cons c rest ih => rw [holds, Bool.or_eq_true, startsWith_iff, ih, List.infix_cons_iff]

theorem startsWith_append (s t : Text) : startsWith (s ++ t) s :=
  startsWith_iff.mpr (List.prefix_append s t)

theorem endsWith_append (s t : Text) : endsWith (s ++ t) t :=
  endsWith_iff.mpr (List.suffix_append s t)

theorem holds_append_left (s t : Text) : holds (s ++ t) s :=
  holds_iff.mpr (List.prefix_append s t).isInfix

theorem holds_append_right (s t : Text) : holds (s ++ t) t :=
  holds_iff.mpr (List.suffix_append s t).isInfix

end Text

/-- Bodies that share a key overlap. -/
theorem Body.overlaps_of_accepts {p q : Body} {key : Text} (hp : p.accepts key)
    (hq : q.accepts key) : p.overlaps q := by
  cases p with
  | exactly f =>
    obtain rfl : key = f := by simpa [accepts] using hp
    exact hq
  | startingWith f =>
    cases q with
    | exactly g =>
      obtain rfl : key = g := by simpa [accepts] using hq
      exact hp
    | startingWith g =>
      -- Of two starts of the same key, one is a start of the other.
      simp only [accepts, Text.startsWith_iff] at hp hq
      simp only [overlaps, Bool.or_eq_true, Text.startsWith_iff]
      exact (List.prefix_or_prefix_of_prefix hp hq).symm
    | _ => rfl
  | endingWith f =>
    cases q with
    | exactly g =>
      obtain rfl : key = g := by simpa [accepts] using hq
      exact hp
    | endingWith g =>
      simp only [accepts, Text.endsWith_iff] at hp hq
      simp only [overlaps, Bool.or_eq_true, Text.endsWith_iff]
      exact (List.suffix_or_suffix_of_suffix hp hq).symm
    | _ => rfl
  | containing f =>
    cases q with
    | exactly g =>
      obtain rfl : key = g := by simpa [accepts] using hq
      exact hp
    | _ => rfl
  | any =>
    cases q <;> rfl

/-- A body is satisfied by its own fragment. -/
theorem Body.accepts_fragment (p : Body) : p.accepts p.fragment := by
  cases p with
  | exactly f => simp [accepts, fragment]
  | startingWith f => exact Text.startsWith_iff.mpr (List.prefix_refl f)
  | endingWith f => exact Text.endsWith_iff.mpr (List.suffix_refl f)
  | containing f => exact Text.holds_iff.mpr (List.infix_refl f)
  | any => rfl

/-- Bodies that overlap share a key. -/
theorem Body.exists_accepts_of_overlaps {p q : Body} (h : p.overlaps q) :
    ∃ key, p.accepts key ∧ q.accepts key := by
  cases p with
  | exactly f => exact ⟨f, accepts_fragment (.exactly f), h⟩
  | any => exact ⟨q.fragment, rfl, accepts_fragment q⟩
  | startingWith f =>
    cases q with
    | exactly g => exact ⟨g, h, accepts_fragment (.exactly g)⟩
    | any => exact ⟨f, accepts_fragment (.startingWith f), rfl⟩
    | startingWith g =>
      -- The longer of the two starts is a key that has both.
      rcases Bool.or_eq_true_iff.mp h with h | h
      · exact ⟨f, accepts_fragment (.startingWith f), h⟩
      · exact ⟨g, h, accepts_fragment (.startingWith g)⟩
    | endingWith g => exact ⟨f ++ g, Text.startsWith_append f g, Text.endsWith_append f g⟩
    | containing g => exact ⟨f ++ g, Text.startsWith_append f g, Text.holds_append_right f g⟩
  | endingWith f =>
    cases q with
    | exactly g => exact ⟨g, h, accepts_fragment (.exactly g)⟩
    | any => exact ⟨f, accepts_fragment (.endingWith f), rfl⟩
    | startingWith g => exact ⟨g ++ f, Text.endsWith_append g f, Text.startsWith_append g f⟩
    | endingWith g =>
      rcases Bool.or_eq_true_iff.mp h with h | h
      · exact ⟨f, accepts_fragment (.endingWith f), h⟩
      · exact ⟨g, h, accepts_fragment (.endingWith g)⟩
    | containing g => exact ⟨g ++ f, Text.endsWith_append g f, Text.holds_append_left g f⟩
  | containing f =>
    cases q with
    | exactly g => exact ⟨g, h, accepts_fragment (.exactly g)⟩
    | any => exact ⟨f, accepts_fragment (.containing f), rfl⟩
    | startingWith g => exact ⟨g ++ f, Text.holds_append_right g f, Text.startsWith_append g f⟩
    | endingWith g => exact ⟨f ++ g, Text.holds_append_left f g, Text.endsWith_append f g⟩
    | containing g => exact ⟨f ++ g, Text.holds_append_left f g, Text.holds_append_right f g⟩

namespace HeaderPattern

/-- Patterns that share a key overlap. -/
theorem overlaps_of_accepts {p q : HeaderPattern} {key : Text} (hp : p.accepts key)
    (hq : q.accepts key) : p.overlaps q :=
  Body.overlaps_of_accepts hp hq

/-- Patterns overlap exactly when they share a key. -/
theorem overlaps_iff {p q : HeaderPattern} :
    p.overlaps q ↔ ∃ key, p.accepts key ∧ q.accepts key :=
  ⟨Body.exists_accepts_of_overlaps, fun ⟨_, hp, hq⟩ => overlaps_of_accepts hp hq⟩

end HeaderPattern

end CloudEnvelope
