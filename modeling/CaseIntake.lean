import CaseIntake.Action
import CaseIntake.Action.Json
import CaseIntake.CommandLine
import CaseIntake.CommandLine.Arguments
import CaseIntake.CommandLine.Files
import CaseIntake.Comparison
import CaseIntake.Conversion
import CaseIntake.Conversion.Payload
import CaseIntake.Dict
import CaseIntake.Document
import CaseIntake.Document.Fence
import CaseIntake.Document.Resolution
import CaseIntake.Document.Shape
import CaseIntake.Environment
import CaseIntake.Ingest
import CaseIntake.Json.Basic
import CaseIntake.Json.DecodeError
import CaseIntake.Json.Decoder
import CaseIntake.Json.Encode
import CaseIntake.Json.Number
import CaseIntake.Json.Reader
import CaseIntake.Json.Shape
import CaseIntake.Json.Writer
import CaseIntake.Main
import CaseIntake.Number.Binary64
import CaseIntake.Number.Digits
import CaseIntake.Number.Layout
import CaseIntake.Number.Numeral
import CaseIntake.Number.Shortest
import CaseIntake.Number.Word
import CaseIntake.Options
import CaseIntake.Options.File
import CaseIntake.Options.Json
import CaseIntake.Proofs.Action
import CaseIntake.Proofs.Action.Json
import CaseIntake.Proofs.Action.Order
import CaseIntake.Proofs.CommandLine
import CaseIntake.Proofs.CommandLine.Files
import CaseIntake.Proofs.Comparison.Grammar
import CaseIntake.Proofs.Comparison.Neighbours
import CaseIntake.Proofs.Comparison.Offsets
import CaseIntake.Proofs.Comparison.Operands
import CaseIntake.Proofs.Comparison.Priority
import CaseIntake.Proofs.Comparison.Quoted
import CaseIntake.Proofs.Comparison.TopLevel
import CaseIntake.Proofs.Conversion.Arguments
import CaseIntake.Proofs.Conversion.CaseByCase
import CaseIntake.Proofs.Conversion.Collect
import CaseIntake.Proofs.Conversion.Consistency
import CaseIntake.Proofs.Conversion.Convergence
import CaseIntake.Proofs.Conversion.GivenOrder
import CaseIntake.Proofs.Conversion.Identifiers
import CaseIntake.Proofs.Conversion.Inputs
import CaseIntake.Proofs.Conversion.NamedOrder
import CaseIntake.Proofs.Conversion.Parts
import CaseIntake.Proofs.Conversion.Payload
import CaseIntake.Proofs.Conversion.Positional
import CaseIntake.Proofs.Conversion.Respelling
import CaseIntake.Proofs.Conversion.RoundTrip
import CaseIntake.Proofs.Conversion.Rules
import CaseIntake.Proofs.Conversion.Setup
import CaseIntake.Proofs.Conversion.Spellings
import CaseIntake.Proofs.Conversion.Totality
import CaseIntake.Proofs.Dict
import CaseIntake.Proofs.Document.Elements
import CaseIntake.Proofs.Document.Fence
import CaseIntake.Proofs.Document.Resolution
import CaseIntake.Proofs.Document.Written
import CaseIntake.Proofs.Environment
import CaseIntake.Proofs.Ingest
import CaseIntake.Proofs.Json.Decoder
import CaseIntake.Proofs.Json.Equality
import CaseIntake.Proofs.Json.Positional
import CaseIntake.Proofs.Json.Shape
import CaseIntake.Proofs.Json.Sorted
import CaseIntake.Proofs.Json.Yields
import CaseIntake.Proofs.Number.Decimal
import CaseIntake.Proofs.Number.Numeral
import CaseIntake.Proofs.Number.Ratio
import CaseIntake.Proofs.Number.Rounding
import CaseIntake.Proofs.Number.Word
import CaseIntake.Proofs.Reference
import CaseIntake.Proofs.Reference.Scan
import CaseIntake.Proofs.Reference.Spelling
import CaseIntake.Proofs.Session
import CaseIntake.Proofs.SimpleCase.Decoded
import CaseIntake.Proofs.SimpleCase.Json
import CaseIntake.Proofs.Spec.Json
import CaseIntake.Proofs.Suite.Decoded
import CaseIntake.Proofs.Suite.Json
import CaseIntake.Proofs.Text.Blank
import CaseIntake.Proofs.Text.Split
import CaseIntake.Proofs.Text.Utf8
import CaseIntake.Proofs.Validation.Defects
import CaseIntake.Proofs.Validation.Errors
import CaseIntake.Proofs.Validation.Fields
import CaseIntake.Proofs.Validation.GivenOrder
import CaseIntake.Proofs.Validation.Locality
import CaseIntake.Proofs.Validation.Loosening
import CaseIntake.Proofs.Validation.Place
import CaseIntake.Proofs.Validation.Reports
import CaseIntake.Proofs.Validation.Respelling
import CaseIntake.Proofs.Value.Json
import CaseIntake.Proofs.Value.Literal
import CaseIntake.Proofs.Value.Normal
import CaseIntake.Proofs.Value.Ordered
import CaseIntake.Proofs.Value.Reading
import CaseIntake.Reference
import CaseIntake.Report
import CaseIntake.Report.Json
import CaseIntake.Session
import CaseIntake.SimpleCase
import CaseIntake.SimpleCase.Json
import CaseIntake.Spec
import CaseIntake.Spec.Identifier
import CaseIntake.Spec.Json
import CaseIntake.Suite
import CaseIntake.Suite.Json
import CaseIntake.Text.Blank
import CaseIntake.Text.Capital
import CaseIntake.Text.Picture
import CaseIntake.Text.Quoted
import CaseIntake.Text.Split
import CaseIntake.Validation
import CaseIntake.Value.Basic
import CaseIntake.Value.Json
import CaseIntake.Value.Literal
import CaseIntake.Yaml.Char
import CaseIntake.Yaml.Cursor
import CaseIntake.Yaml.Node
import CaseIntake.Yaml.Node.Json
import CaseIntake.Yaml.Node.Parser
import CaseIntake.Yaml.Scalar.Block
import CaseIntake.Yaml.Scalar.Folding
import CaseIntake.Yaml.Scalar.Plain
import CaseIntake.Yaml.Scalar.Quoted
import CaseIntake.Yaml.Scalar.Schema
import CaseIntake.Yaml.Token
import CaseIntake.Yaml.Token.Lexer
import CaseIntake.Yaml.Token.Tag
