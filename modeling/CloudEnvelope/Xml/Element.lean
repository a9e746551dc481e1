import CloudEnvelope.Text.Basic

/-!
# XML elements

An `Xml.Element` has attributes and either one text or elements inside it. `Xml.Element.write`
prints it without blanks of its own. In texts and attribute values everything that could be taken
for markup is written as a reference; in attribute values so are the blanks that a reader would
change into spaces.
-/

namespace CloudEnvelope.Xml

/-- A name and its value inside a start tag. -/
structure Attribute where
  name : Text
  value : Text
deriving DecidableEq, Repr

/-- An element that holds a text. -/
structure Leaf where
  name : Text
  attributes : List Attribute
  text : Text
deriving DecidableEq, Repr

/-- An element that holds elements with texts. -/
structure Element where
  name : Text
  attributes : List Attribute
  children : List Leaf
deriving DecidableEq, Repr

/-- A code point inside a text. -/
def escapePoint (c : CodePoint) : Text :=
  if c = .scalar '&' then "&amp;"
  else if c = .scalar '<' then "&lt;"
  else if c = .scalar '>' then "&gt;"
  else [c]

/-- A code point inside a value between quotation marks. -/
def escapeQuotedPoint (c : CodePoint) : Text :=
  if c = .scalar '"' then "&quot;"
  else if c = .scalar '\r' then "&#13;"
  else if c = .scalar '\n' then "&#10;"
  else if c = .scalar '\t' then "&#09;"
  else escapePoint c

/-- A text between tags. -/
def escape (t : Text) : Text := t.flatMap escapePoint

/-- A text between quotation marks. -/
def escapeQuoted (t : Text) : Text := t.flatMap escapeQuotedPoint

/-- An attribute after a space. -/
def Attribute.write (a : Attribute) : Text :=
  " " ++ a.name ++ "=\"" ++ escapeQuoted a.value ++ "\""

/-- The name and the attributes of a tag. -/
def writeTagStart (name : Text) (attributes : List Attribute) : Text :=
  "<" ++ name ++ attributes.flatMap Attribute.write

/-- An element around its content; one without content is a single tag. -/
def writeAround (name : Text) (attributes : List Attribute) (content : Text) : Text :=
  if content.isEmpty then writeTagStart name attributes ++ " />"
  else writeTagStart name attributes ++ ">" ++ content ++ "</" ++ name ++ ">"

/-- The element with its text. -/
def Leaf.write (l : Leaf) : Text := writeAround l.name l.attributes (escape l.text)

/-- The element with everything inside it. -/
def Element.write (e : Element) : Text :=
  writeAround e.name e.attributes (e.children.flatMap Leaf.write)

end CloudEnvelope.Xml
