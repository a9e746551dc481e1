import CloudEnvelope.Text.Basic
import CloudEnvelope.Text.CodePointSet

/-!
# Blanks

The blank code points are the white space of Unicode and the four information separators U+001C
to U+001F. `isBlank_of_isWhitespace` says that they include what ASCII counts as white space.
Readers of URIs drop something else at the ends: the space and every control character before it.
-/

namespace CloudEnvelope

/-- White space, and the information separators U+001C to U+001F. -/
def CodePointSet.blank : CodePointSet where
  boundaries := [
    9, 14, 28, 33, 133, 134, 160, 161, 5760, 5761, 8192, 8203, 8232, 8234, 8239, 8240, 8287, 8288,
    12288, 12289]

/-- The code point is blank. -/
def CodePoint.isBlank (c : CodePoint) : Bool := CodePointSet.blank.contains c.toNat

/-- The control characters of ASCII and the space. -/
def CodePoint.isControlOrSpace (c : CodePoint) : Bool := c.toNat ≤ 0x20

namespace CodePoint

theorem isBlank_of_isWhitespace (c : Char) (h : c.isWhitespace) : (scalar c).isBlank := by
  simp only [Char.isWhitespace, Bool.or_eq_true, decide_eq_true_eq] at h
  rcases h with ((rfl | rfl) | rfl) | rfl <;> decide

end CodePoint

namespace Text

/-- The text without the blanks at its start. -/
def trimStart (t : Text) : Text := t.dropWhile CodePoint.isBlank

/-- The text without the blanks at its ends. -/
def trim (t : Text) : Text := (trimStart (trimStart t).reverse).reverse

end Text

end CloudEnvelope
