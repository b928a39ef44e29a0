import ContractNet.Text.Basic
import ContractNet.Text.Utf8
import ContractNet.Text.Printable
import ContractNet.Text.Quoted
import ContractNet.Text.Blank
import ContractNet.Expr.Token
import ContractNet.Expr.Variables
import ContractNet.Expr.Literal
import ContractNet.Json.Basic
import ContractNet.Json.Reader
import ContractNet.Json.Fields
import ContractNet.Syntax.Tree
import ContractNet.Syntax.Dump
import ContractNet.Contract.Basic
import ContractNet.Contract.Json
import ContractNet.Contract.Build
import ContractNet.Net.Basic
import ContractNet.Net.Draft
import ContractNet.Net.OfContract
import ContractNet.Xml.Name
import ContractNet.Xml.Basic
import ContractNet.Xml.Reader
import ContractNet.Net.Json
import ContractNet.Net.Pnml
import ContractNet.Digest.Sha256
import ContractNet.Net.ControlFlow
import ContractNet.Validation.Finding
import ContractNet.Validation.Report
import ContractNet.Drawing.Fixed
import ContractNet.Drawing.Layout
import ContractNet.Drawing.Svg
import ContractNet.Text.Integer
import ContractNet.Yaml.Fault
import ContractNet.Yaml.Stream
import ContractNet.Yaml.Cursor
import ContractNet.Yaml.Comment
import ContractNet.Yaml.Scalar
import ContractNet.Yaml.Tag
import ContractNet.Yaml.Token
import ContractNet.Yaml.Schema
import ContractNet.Yaml.Node
import ContractNet.Text.Base64
import ContractNet.Yaml.Record
import ContractNet.Yaml.Printer
import ContractNet.Log.Level
import ContractNet.Settings.Basic
import ContractNet.Log.Record
import ContractNet.Files.Basic
import ContractNet.Time.Instant
import ContractNet.Time.Zoned
import ContractNet.Compilation.Basic
import ContractNet.History.Basic
import ContractNet.History.Address
import ContractNet.History.Stored
import ContractNet.Command.Flags
import ContractNet.Command.Session
import ContractNet.Command.Actions
import ContractNet.Command.Line
import ContractNet.Text.Table
import ContractNet.Validation.Summary
import ContractNet.Main
import ContractNet.Proofs.Text.Basic
import ContractNet.Proofs.Net.Numbering
import ContractNet.Proofs.Net.Blueprint
import ContractNet.Proofs.Net.Wiring
import ContractNet.Proofs.Net.DataFlow
import ContractNet.Proofs.Validation.Faults
import ContractNet.Proofs.Validation.OfContract
import ContractNet.Proofs.Text.Utf8
import ContractNet.Proofs.Xml.Escape
import ContractNet.Proofs.Xml.RoundTrip
import ContractNet.Proofs.Net.Texts
import ContractNet.Proofs.Net.Pnml
import ContractNet.Proofs.Expr.Pieces
import ContractNet.Proofs.Expr.Substitution
import ContractNet.Proofs.Expr.FreshName
import ContractNet.Proofs.Net.Inscriptions
import ContractNet.Proofs.Net.ControlFlow
import ContractNet.Proofs.Contract.Build
import ContractNet.Proofs.Compilation.Outcome
import ContractNet.Proofs.Net.Allocation
import ContractNet.Proofs.Json.Quote
import ContractNet.Proofs.Json.Value
import ContractNet.Proofs.Json.RoundTrip
import ContractNet.Proofs.Json.Fields
import ContractNet.Proofs.Net.Json
import ContractNet.Proofs.Syntax.Dump
import ContractNet.Proofs.Expr.Spans
import ContractNet.Proofs.Text.Blank
import ContractNet.Proofs.Expr.Borders
import ContractNet.Proofs.Expr.Arguments
import ContractNet.Proofs.Contract.Guard
import ContractNet.Proofs.Text.Digits
import ContractNet.Proofs.Time.Calendar
import ContractNet.Proofs.Time.Fixed
import ContractNet.Proofs.History.Recorded
import ContractNet.Proofs.Expr.Numeral
import ContractNet.Proofs.Expr.Literal
import ContractNet.Proofs.Validation.Literals
import ContractNet.Proofs.Expr.Brackets
import ContractNet.Proofs.Contract.Brackets
import ContractNet.Proofs.Net.Reachability
import ContractNet.Proofs.Validation.Branching
import ContractNet.Proofs.Validation.Connectivity
import ContractNet.Proofs.Net.Essence
import ContractNet.Proofs.Net.Extension
import ContractNet.Proofs.Syntax.Replacement
import ContractNet.Proofs.Contract.Congruence
import ContractNet.Proofs.Contract.Unvisited
import ContractNet.Proofs.Contract.Regrouping
import ContractNet.Proofs.Contract.Definitions
import ContractNet.Proofs.Drawing.Layout
import ContractNet.Proofs.Drawing.OfContract
import ContractNet.Proofs.Drawing.Markup
import ContractNet.Proofs.Drawing.Encoding
import ContractNet.Proofs.Drawing.Entities
import ContractNet.Proofs.Drawing.Bends
import ContractNet.Proofs.Lists
import ContractNet.Proofs.Syntax.Fault
import ContractNet.Proofs.Expr.Splitting
import ContractNet.Proofs.Expr.Identifiers
