import CloudEnvelope.Attribute.Kind
import CloudEnvelope.Attribute.Resolution
import CloudEnvelope.Attribute.Value
import CloudEnvelope.Avro.Integer
import CloudEnvelope.Avro.Record
import CloudEnvelope.Avro.RecordReader
import CloudEnvelope.Base64
import CloudEnvelope.Calendar.Date
import CloudEnvelope.Calendar.DateTime
import CloudEnvelope.Calendar.Iso
import CloudEnvelope.Calendar.IsoReader
import CloudEnvelope.Calendar.TimeReader
import CloudEnvelope.Calendar.UnixTime
import CloudEnvelope.Classifier
import CloudEnvelope.Converter
import CloudEnvelope.Event.Basic
import CloudEnvelope.Event.Builder
import CloudEnvelope.Event.Data
import CloudEnvelope.Event.Validation
import CloudEnvelope.Extension
import CloudEnvelope.Failure
import CloudEnvelope.Format.AvroEnvelope
import CloudEnvelope.Format.Basic
import CloudEnvelope.Format.JsonEnvelope
import CloudEnvelope.Format.JsonEnvelope.Reader
import CloudEnvelope.Format.Registry
import CloudEnvelope.Format.XmlEnvelope
import CloudEnvelope.Json.Basic
import CloudEnvelope.Json.Printer
import CloudEnvelope.Json.Reader
import CloudEnvelope.MediaType
import CloudEnvelope.Message
import CloudEnvelope.Number.Binary64
import CloudEnvelope.Number.Layout
import CloudEnvelope.Number.Shortest
import CloudEnvelope.Number.Word
import CloudEnvelope.OrderedMap
import CloudEnvelope.Pattern
import CloudEnvelope.Problem
import CloudEnvelope.Settings
import CloudEnvelope.Text.Basic
import CloudEnvelope.Text.Blank
import CloudEnvelope.Text.CodePointSet
import CloudEnvelope.Text.Identifier
import CloudEnvelope.Text.Lowercase
import CloudEnvelope.Text.Printable
import CloudEnvelope.Text.Quoted
import CloudEnvelope.Text.Utf8
import CloudEnvelope.Transformer
import CloudEnvelope.Uri.Address
import CloudEnvelope.Uri.Reference
import CloudEnvelope.Uri.Url
import CloudEnvelope.Value.Basic
import CloudEnvelope.Value.Render
import CloudEnvelope.Xml.Element
import CloudEnvelope.Proofs.Text.Scalar
import CloudEnvelope.Proofs.Text.Utf8
import CloudEnvelope.Proofs.Text.Split
import CloudEnvelope.Proofs.Base64
import CloudEnvelope.Proofs.Calendar.Ordinal
import CloudEnvelope.Proofs.Calendar.Rfc3339
import CloudEnvelope.Proofs.OrderedMap
import CloudEnvelope.Proofs.Event.Validation
import CloudEnvelope.Proofs.Event.ReadBack
import CloudEnvelope.Proofs.Avro.Integer
import CloudEnvelope.Proofs.Avro.Record
import CloudEnvelope.Proofs.Format.AvroEnvelope
import CloudEnvelope.Proofs.Classifier
import CloudEnvelope.Proofs.Pattern
import CloudEnvelope.Proofs.Transformer.Construction
import CloudEnvelope.Proofs.Transformer.Headers
import CloudEnvelope.Proofs.Json.Text
import CloudEnvelope.Proofs.Json.Number
import CloudEnvelope.Proofs.Json.Numeral
import CloudEnvelope.Proofs.Json.Value
import CloudEnvelope.Proofs.Json.Denotation
import CloudEnvelope.Proofs.Json.Ascii
import CloudEnvelope.Proofs.Format.JsonDocument
import CloudEnvelope.Proofs.Format.JsonEnvelope
import CloudEnvelope.Proofs.Format.JsonData
import CloudEnvelope.Proofs.Attribute.Value
import CloudEnvelope.Proofs.Attribute.Resolution
import CloudEnvelope.Proofs.Event.Builder
import CloudEnvelope.Proofs.Transformer.Envelope
import CloudEnvelope.Proofs.Format.Registry
import CloudEnvelope.Proofs.Attribute.Specification
import CloudEnvelope.Proofs.Transformer.Configuration
import CloudEnvelope.Proofs.Format.Encoders
import CloudEnvelope.Proofs.Transformer.Failures
import CloudEnvelope.Proofs.Format.XmlEnvelope
import CloudEnvelope.Proofs.Format.Extensions
import CloudEnvelope.Proofs.Transformer.HeaderOrder
import CloudEnvelope.Proofs.Format.RegistryRun
import CloudEnvelope.Proofs.Transformer.BinaryMode
import CloudEnvelope.Proofs.Json.Grammar
import CloudEnvelope.Proofs.Json.Unquoted
import CloudEnvelope.Proofs.Format.JsonStandard
import CloudEnvelope.Proofs.Json.Texts
import CloudEnvelope.Proofs.Format.JsonAcceptance
import CloudEnvelope.Proofs.Avro.Faults
import CloudEnvelope.Proofs.Event.Problems
import CloudEnvelope.Proofs.Format.Decoders
import CloudEnvelope.Proofs.Transformer.AvroReadBack
import CloudEnvelope.Proofs.Transformer.MappingFailures
import CloudEnvelope.Proofs.Transformer.Defaults
import CloudEnvelope.Proofs.Format.JsonReadBack
import CloudEnvelope.Proofs.Transformer.JsonReadBack
import CloudEnvelope.Proofs.Xml.Grammar
import CloudEnvelope.Proofs.Xml.Document
import CloudEnvelope.Proofs.Format.XmlDocument
import CloudEnvelope.Proofs.Avro.Delimited
import CloudEnvelope.Proofs.Avro.Canonical
import CloudEnvelope.Proofs.Format.AvroBytes
import CloudEnvelope.Proofs.Format.JsonRewriting
import CloudEnvelope.Proofs.Xml.SchemaTypes
import CloudEnvelope.Proofs.Format.XmlTypes
import CloudEnvelope.Proofs.Json.Delimited
import CloudEnvelope.Proofs.Format.JsonBytes
import CloudEnvelope.Proofs.Pattern.Language
import CloudEnvelope.Proofs.Classifier.Precedence
import CloudEnvelope.Proofs.Calendar.Iso
import CloudEnvelope.Proofs.Attribute.Timestamp
import CloudEnvelope.Proofs.Event.Attributes
import CloudEnvelope.Proofs.Format.JsonMembers
import CloudEnvelope.Proofs.Text.CodePointSet
import CloudEnvelope.Proofs.Format.XmlNames
import CloudEnvelope.Proofs.Text.Lowercase
import CloudEnvelope.Proofs.Format.MediaTypes
import CloudEnvelope.Uri.Host
import CloudEnvelope.Proofs.Uri.Address
import CloudEnvelope.Proofs.Uri.Url
import CloudEnvelope.Proofs.Attribute.Uri
