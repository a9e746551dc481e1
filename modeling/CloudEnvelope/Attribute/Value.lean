import CloudEnvelope.Attribute.Kind
import CloudEnvelope.Calendar.IsoReader
import CloudEnvelope.Failure
import CloudEnvelope.Uri.Reference

/-!
# Attribute values

An attribute value is a text or a time. `AttributeKind.convert` reads a header value as a value of a
kind: strings are taken as they are, URIs are reference texts or URLs, timestamps are times or their
ISO 8601 texts. A time without an offset is taken as UTC.
-/

namespace CloudEnvelope

/-- The value of a context attribute. -/
inductive AttributeValue where
  | text (t : Text)
  | time (t : DateTime)
deriving DecidableEq, Repr

/-- An attribute value among the values of headers. -/
def AttributeValue.toValue : AttributeValue → Value
  | text t => .text t
  | time t => .dateTime t

namespace AttributeKind

/-- The mismatch of a value of the wrong type. -/
def wrongType (kind : AttributeKind) (name : Text) (v : Value) : TypeMismatch where
  name := name
  valueType := v.typeName
  expected := kind.expectation

/-- The mismatch of a text that does not have the form it should have. -/
def wrongForm (kind : AttributeKind) (name t form : Text) (fault : Option Fault) :
    TypeMismatch where
  name := name
  valueType := "str"
  expected := kind.expectation
  reason := some (t.quoted ++ " is not " ++ form)
  fault := fault

/-- Reads a header value as a string. -/
def toText (name : Text) : Value → Except TypeMismatch Text
  | .text t => .ok t
  | v => .error (string.wrongType name v)

/-- Reads a header value as a URI. -/
def toUri (name : Text) : Value → Except TypeMismatch Text
  | .url u => .ok u.href
  | .text t =>
    match UriReference.fault? t with
    | none => .ok t
    | some .blank => .error (uri.wrongForm name t "a URI reference" none)
    | some .authority => .error (uri.wrongForm name t "a URI reference" (some .malformedUri))
  | v => .error (uri.wrongType name v)

/-- Reads a header value as a time with an offset. -/
def toTimestamp (name : Text) : Value → Except TypeMismatch DateTime
  | .dateTime t => .ok t.assumeUtc
  | .text t =>
    match DateTime.ofIso? t with
    | some time => .ok time.assumeUtc
    | none => .error (timestamp.wrongForm name t "RFC 3339" (some .malformedTime))
  | v => .error (timestamp.wrongType name v)

/-- Reads a header value as a value of a kind. -/
def convert (kind : AttributeKind) (name : Text) (v : Value) :
    Except TypeMismatch AttributeValue :=
  match kind with
  | string => (toText name v).map .text
  | uri => (toUri name v).map .text
  | timestamp => (toTimestamp name v).map .time

end AttributeKind

end CloudEnvelope
