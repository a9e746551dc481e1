import CloudEnvelope.Proofs.Attribute.Value
import CloudEnvelope.Proofs.Uri.Reference

/-!
# URIs from texts and from URLs

A URI is read from a reference text, which is checked, or from a URL, which is not.
`AttributeKind.toUri_again` says when the result passes the check: always, unless a space stands
in the bare path of a URL.
-/

namespace CloudEnvelope.AttributeKind

open UriReference

variable {name r : Text} {v : Value}

/-- A text is a URI exactly when it has no fault, and then it is its own URI. -/
theorem toUri_text_eq_ok_iff {t : Text} :
    toUri name (.text t) = .ok r ↔ t = r ∧ fault? t = none := by
  rw [toUri]
  cases fault? t with
  | none => simp
  | some fault => cases fault <;> simp

theorem not_isBlank_of_fault? {t : Text} (h : fault? t = none) : ∀ c ∈ t, c.isBlank = false := by
  intro c hc
  rw [← Bool.not_eq_true]
  intro hblank
  have hany : t.any CodePoint.isBlank := List.any_eq_true.mpr ⟨c, hc, hblank⟩
  rw [fault?, hany, Bool.or_true, if_pos rfl] at h
  cases h

/-- A URI is not empty.  It is accepted again, as it is, unless it holds a blank, and this is then a
space in the bare path of a URL. -/
theorem toUri_again (h : toUri name v = .ok r) :
    r ≠ [] ∧ (toUri name (.text r) = .ok r ↔ ∀ c ∈ r, c.isBlank = false) ∧
      ∀ c ∈ r, c.isBlank → c = .scalar ' ' ∧ Url.IsBare r ∧ ∃ u, v = .url u := by
  refine ⟨ne_nil_of_toUri h, ?_⟩
  cases v with
  | url u =>
    cases h
    obtain ⟨p, hp, hhref⟩ := u.exists_parts
    rw [hhref, toUri_text_eq_ok_iff, and_iff_right rfl]
    refine ⟨Url.fault?_write_iff hp, fun c hc hblank => ?_⟩
    obtain ⟨d, hd, rfl⟩ := List.mem_map.mp hc
    rcases hp.mem_write hd with hvisible | ⟨rfl, hbare⟩
    · rw [Url.isBlank_of_isVisible hvisible] at hblank
      cases hblank
    · exact ⟨rfl, hbare, u, rfl⟩
  | text t =>
    obtain ⟨rfl, hfault⟩ := toUri_text_eq_ok_iff.mp h
    have hnone := not_isBlank_of_fault? hfault
    refine ⟨⟨fun _ => hnone, fun _ => h⟩, fun c hc hblank => ?_⟩
    rw [hnone c hc] at hblank
    cases hblank
  | _ => cases h

/-- A URL whose path is encoded. -/
def ordersUrl : Url where
  href := "https://example.com/a%20b"
  normal := ⟨"HTTPS://EXAMPLE.com:443/./a b", by decide +kernel⟩

theorem toUri_again_ordersUrl :
    toUri "source" (.url ordersUrl) = .ok "https://example.com/a%20b" ∧
      toUri "source" (.text "https://example.com/a%20b") = .ok "https://example.com/a%20b" := by
  have haccepted : toUri "source" (.url ordersUrl) = .ok "https://example.com/a%20b" := rfl
  exact ⟨haccepted, (toUri_again haccepted).2.1.mpr (by decide +kernel)⟩

/-- A URL with a space in its bare path. -/
def spacedUrl : Url where
  href := "data:a b"
  normal := ⟨"data:a b", by decide +kernel⟩

/-- It is accepted, and its own text is refused. -/
theorem spacedUrl_accepted :
    toUri "source" (.url spacedUrl) = .ok "data:a b" ∧ .scalar ' ' ∈ Text.ofString "data:a b" ∧
      toUri "source" (.text "data:a b")
        = .error (uri.wrongForm "source" "data:a b" "a URI reference" none) :=
  ⟨rfl, by decide, rfl⟩

end CloudEnvelope.AttributeKind
