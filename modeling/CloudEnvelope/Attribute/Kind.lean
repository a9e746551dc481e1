import CloudEnvelope.Text.Basic

/-!
# Context attributes

An event has seven context attributes that headers can supply, each of one kind. Three of them are
mandatory. `Event.forbiddenNames` lists the names that an extension may not have: these attributes
and the members that every format writes itself.
-/

namespace CloudEnvelope

/-- The kinds of attribute values. -/
inductive AttributeKind where
  | string
  | uri
  | timestamp
deriving DecidableEq, Repr

namespace AttributeKind

/-- The name of a kind, as messages give it. -/
def name : AttributeKind → String
  | string => "string"
  | uri => "uri"
  | timestamp => "timestamp"

/-- What messages say a value of the kind must be. -/
def expectation : AttributeKind → Text
  | string => "a String"
  | uri => "a String or URI"
  | timestamp => "a timestamp"

end AttributeKind

/-- The context attributes that headers can supply. -/
inductive ContextAttribute where
  | id
  | source
  | type
  | time
  | dataContentType
  | dataSchema
  | subject
deriving DecidableEq, Repr

namespace ContextAttribute

/-- The attributes in their order. -/
def all : List ContextAttribute := [id, source, type, time, dataContentType, dataSchema, subject]

/-- The name of an attribute inside an event. -/
def name : ContextAttribute → String
  | id => "id"
  | source => "source"
  | type => "type"
  | time => "time"
  | dataContentType => "datacontenttype"
  | dataSchema => "dataschema"
  | subject => "subject"

/-- The attribute of a name. -/
def ofName? (t : Text) : Option ContextAttribute := all.find? fun a => (a.name : Text) == t

/-- The kind of an attribute's values. -/
def kind : ContextAttribute → AttributeKind
  | source => .uri
  | dataSchema => .uri
  | time => .timestamp
  | _ => .string

/-- The attributes that every event has. -/
def mandatory : List ContextAttribute := [id, source, type]

end ContextAttribute

/-- The names that no extension may have, in order. -/
def Event.forbiddenNames : List String :=
  ["data", "data_base64", "datacontenttype", "dataschema", "id", "source", "specversion",
    "subject", "time", "type"]

end CloudEnvelope
