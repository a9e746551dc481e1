import CloudEnvelope.Number.Word
import CloudEnvelope.Value.Render

/-!
# Problems found in validation

Validation of an event or of settings reports every problem it finds: where it is and of what kind.
-/

namespace CloudEnvelope

/-- A step on the way to the place of a problem. -/
inductive Step where
  | name (t : Text)
  | index (n : Int)
deriving DecidableEq, Repr

/-- What is wrong with a value. -/
inductive ProblemKind where
  | missing
  | extraForbidden
  | stringType
  | stringTooShort
  | stringUnicode
  | bytesType
  | tupleType
  | urlType
  | datetimeType
  | datetimeParsing
  | datetimeFromDateParsing
deriving DecidableEq, Repr

/-- The code that reports give for a kind of problem. -/
def ProblemKind.code : ProblemKind → String
  | missing => "missing"
  | extraForbidden => "extra_forbidden"
  | stringType => "string_type"
  | stringTooShort => "string_too_short"
  | stringUnicode => "string_unicode"
  | bytesType => "bytes_type"
  | tupleType => "tuple_type"
  | urlType => "url_type"
  | datetimeType => "datetime_type"
  | datetimeParsing => "datetime_parsing"
  | datetimeFromDateParsing => "datetime_from_date_parsing"

/-- A problem and its place. -/
structure Problem where
  location : List Step
  kind : ProblemKind
deriving DecidableEq, Repr

/-- The step that a key of a map stands for. -/
def Step.ofKey : Value → Step
  | .text t => name t
  | v =>
    match v.toInt? with
    | some n => if Word.holds 64 n then index n else name v.literal
    | none => name v.literal

/-- A value or all the problems that keep it from being one. -/
abbrev Checked (α : Type) := Except (List Problem) α

namespace Checked

/-- The result of reading the value at a place. -/
def at' {α : Type} (location : List Step) : Except ProblemKind α → Checked α
  | .ok a => .ok a
  | .error kind => .error [⟨location, kind⟩]

/-- The problems, if there are any. -/
def problems {α : Type} : Checked α → List Problem
  | .ok _ => []
  | .error ps => ps

/-- Both results, or the problems of both. -/
def both {α β : Type} : Checked α → Checked β → Checked (α × β)
  | .ok a, .ok b => .ok (a, b)
  | .ok _, .error ps => .error ps
  | .error ps, .ok _ => .error ps
  | .error ps, .error qs => .error (ps ++ qs)

/-- All results, or the problems of all. -/
def all {α : Type} : List (Checked α) → Checked (List α)
  | [] => .ok []
  | c :: rest =>
    match both c (all rest) with
    | .ok (a, as) => .ok (a :: as)
    | .error ps => .error ps

end Checked

end CloudEnvelope
