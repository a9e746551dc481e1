import CloudEnvelope.Message
import CloudEnvelope.Pattern

/-!
# Classification of headers

A classifier goes through its patterns in order, and the first whose body a key satisfies decides:
a negated pattern excludes the header, any other makes it an extension. Other headers stay
unclassified. Without patterns nothing is classified.
-/

namespace CloudEnvelope

/-- What becomes of a header. -/
inductive Outcome where
  | promoted
  | excluded
  | unclassified
deriving DecidableEq, Repr

/-- Patterns in the order in which they are asked. -/
structure Classifier where
  patterns : List HeaderPattern
deriving DecidableEq, Repr

/-- The headers that become extensions, and the keys that are dropped. -/
structure Classification where
  extensions : Headers
  excluded : List Text

/-- The keys that do not pass through. -/
def Classification.removed (c : Classification) : List Text := c.extensions.keys ++ c.excluded

namespace Classifier

/-- The classifier of a list of tokens. -/
def ofTokens (tokens : List Text) : Except ConfigurationIssue Classifier := do
  let patterns ← tokens.mapM fun t => HeaderPattern.parse t
  .ok ⟨patterns⟩

/-- The outcome that the first matching pattern decides. -/
def outcome (c : Classifier) (key : Text) : Outcome :=
  match c.patterns.find? (·.accepts key) with
  | none => .unclassified
  | some p => if p.negated then .excluded else .promoted

/-- The headers by their outcomes. -/
def classify (c : Classifier) (headers : Headers) : Classification where
  extensions := headers.filter fun key _ => c.outcome key = .promoted
  excluded := headers.keys.filter fun key => c.outcome key = .excluded

end Classifier

end CloudEnvelope
