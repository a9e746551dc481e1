import CloudEnvelope.Attribute.Resolution
import CloudEnvelope.Event.Validation

/-!
# Settings

The settings of a transformer: for every context attribute a header pattern and a default, the
patterns of extensions, and the media type that is written when none is asked for.
`Settings.ofFields` reads them from named values and reports the problems of all fields, in field
order and unknown fields last. `Settings.specs` makes one specification of each attribute.
-/

namespace CloudEnvelope

/-- A default as settings give it. -/
inductive DefaultSetting where
  | text (t : Text)
  | url (u : Url)
  | time (t : DateTime)

/-- A default among the values of headers. -/
def DefaultSetting.toValue : DefaultSetting → Value
  | text t => .text t
  | url u => .url u
  | time t => .dateTime t

/-- The settings of a transformer. -/
structure Settings where
  patterns : ContextAttribute → Option Text
  defaults : ContextAttribute → Option DefaultSetting
  extensionPatterns : Option (List Text)
  defaultMediaType : Option Text

namespace Settings

/-- What the fields of an attribute start with. -/
def fieldStem : ContextAttribute → String
  | .dataContentType => "data_content_type"
  | .dataSchema => "data_schema"
  | a => a.name

/-- The field of an attribute's pattern. -/
def patternField (a : ContextAttribute) : Text := fieldStem a ++ ("_pattern" : Text)

/-- The field of an attribute's default. -/
def defaultField (a : ContextAttribute) : Text := fieldStem a ++ ("_default" : Text)

/-- The field of the patterns of extensions. -/
def extensionField : Text := "extension_patterns"

/-- The field of the default media type. -/
def mediaTypeField : Text := "default_media_type"

/-- The names of the fields. -/
def fieldNames : List Text :=
  ContextAttribute.all.map patternField ++ ContextAttribute.all.map defaultField
    ++ [extensionField, mediaTypeField]

/-- The pattern of an attribute unless settings say otherwise: only the content type has one. -/
def standardPattern : ContextAttribute → Option Text
  | .dataContentType => some "contentType"
  | _ => none

/-- A field that has a value when it is not given, and is nothing when it is null. -/
def optional {α : Type} (fields : OrderedMap Text Value) (name : Text) (standard : Option α)
    (read : Value → Checked α) : Checked (Option α) :=
  match fields.get? name with
  | none => .ok standard
  | some .null => .ok none
  | some v => (read v).map some

/-- The reading of a text at a place. -/
def text (location : List Step) (v : Value) : Checked Text := .at' location (Field.text v)

/-- A text or a URL. -/
def uri (location : List Step) : Value → Checked DefaultSetting
  | .url u => .ok (.url u)
  | v =>
    match text (location ++ [.name "str"]) v with
    | .ok t => .ok (.text t)
    | .error problems => .error (problems ++ [⟨location ++ [.name "url"], .urlType⟩])

/-- A time or a text. What is no text already is read as a time first. -/
def time (location : List Step) : Value → Checked DefaultSetting
  | .text t => .ok (.text t)
  | v =>
    -- Both readings are tried, because the problems of both are reported.
    match Checked.at' (location ++ [.name "datetime"]) (Field.time v),
      text (location ++ [.name "str"]) v with
    | .ok t, _ => .ok (.time t)
    | _, .ok t => .ok (.text t)
    | .error ps, .error qs => .error (ps ++ qs)

/-- The default of an attribute. -/
def readDefault (a : ContextAttribute) (v : Value) : Checked DefaultSetting :=
  let location := [Step.name (defaultField a)]
  match a.kind with
  | .string => (text location v).map .text
  | .uri => uri location v
  | .timestamp => time location v

/-- A list or a tuple of texts. -/
def texts (name : Text) : Value → Checked (List Text)
  | .list items => all items
  | .tuple items => all items
  | _ => .error [⟨[.name name], .tupleType⟩]
where
  /-- Every item, read at its index. -/
  all (items : List Value) : Checked (List Text) :=
    .all (items.mapIdx fun i v => text [.name name, .index i] v)

/-- The pattern of an attribute. -/
def patternOf (fields : OrderedMap Text Value) (a : ContextAttribute) : Checked (Option Text) :=
  optional fields (patternField a) (standardPattern a) (text [.name (patternField a)])

/-- The default of an attribute, if it has one. -/
def defaultOf (fields : OrderedMap Text Value) (a : ContextAttribute) :
    Checked (Option DefaultSetting) :=
  optional fields (defaultField a) none (readDefault a)

/-- The problems of fields that settings do not have. -/
def unknownFields (fields : OrderedMap Text Value) : List Problem :=
  (fields.keys.filter fun name => !fieldNames.contains name).map fun name =>
    ⟨[.name name], .extraForbidden⟩

/-- The settings of named values. -/
def ofFields (fields : OrderedMap Text Value) : Except ConfigurationIssue Settings :=
  let extensionPatterns := optional fields extensionField none (texts extensionField)
  let defaultMediaType := optional fields mediaTypeField none (text [.name mediaTypeField])
  let problems :=
    ContextAttribute.all.flatMap (fun a => (patternOf fields a).problems)
      ++ ContextAttribute.all.flatMap (fun a => (defaultOf fields a).problems)
      ++ extensionPatterns.problems ++ defaultMediaType.problems ++ unknownFields fields
  if problems.isEmpty then
    .ok {
      patterns := fun a => (patternOf fields a).toOption.join
      defaults := fun a => (defaultOf fields a).toOption.join
      extensionPatterns := extensionPatterns.toOption.join
      defaultMediaType := defaultMediaType.toOption.join }
  else .error (.invalidSettings problems)

/-- The specification of an attribute. -/
def spec (s : Settings) (a : ContextAttribute) : Except ConfigurationIssue AttributeSpec :=
  AttributeSpec.make a.name a.kind (s.patterns a) ((s.defaults a).map DefaultSetting.toValue)
    (ContextAttribute.mandatory.contains a)

/-- The specifications of all attributes in their order. -/
def specs (s : Settings) : Except ConfigurationIssue (List AttributeSpec) :=
  ContextAttribute.all.mapM s.spec

end Settings

end CloudEnvelope
