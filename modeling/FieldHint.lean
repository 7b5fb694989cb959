import FieldHint.Body.Pieces
import FieldHint.Body.Row
import FieldHint.Body.Scan
import FieldHint.Brace
import FieldHint.CommandLine.Request
import FieldHint.CommandLine.Run
import FieldHint.CommandLine.Settings
import FieldHint.CommandLine.Token
import FieldHint.CommandLine.Usage
import FieldHint.Comment
import FieldHint.Cursor.Commas
import FieldHint.Cursor.Context
import FieldHint.Declaration.Basic
import FieldHint.Declaration.Group
import FieldHint.Declaration.Lookup
import FieldHint.Description.Basic
import FieldHint.Description.Fence
import FieldHint.Editor.Session
import FieldHint.Field
import FieldHint.File.Disk
import FieldHint.File.Path
import FieldHint.File.Tree
import FieldHint.Help.Lsp
import FieldHint.Help.Provider
import FieldHint.Help.Report
import FieldHint.Help.Signature
import FieldHint.Hover.Payload
import FieldHint.Hover.Saved
import FieldHint.Json.Basic
import FieldHint.Json.Fault
import FieldHint.Json.Reader
import FieldHint.Json.Half
import FieldHint.Json.Writer
import FieldHint.Main
import FieldHint.Position
import FieldHint.Proofs.Text.Class
import FieldHint.Struct.Basic
import FieldHint.Struct.Header
import FieldHint.Text.Basic
import FieldHint.Text.Blank
import FieldHint.Text.Decimal
import FieldHint.Text.Hex
import FieldHint.Text.Integer
import FieldHint.Text.Lines
import FieldHint.Text.Printable
import FieldHint.Text.Quoted
import FieldHint.Text.Ranges
import FieldHint.Text.Upper
import FieldHint.Text.Utf8
import FieldHint.Text.Word
import FieldHint.Trace.Event
import FieldHint.Trace.Level
import FieldHint.Trace.Search
import FieldHint.Proofs.Text.Cut
import FieldHint.Proofs.Text.Escaped
import FieldHint.Proofs.Text.Scan
import FieldHint.Proofs.Text.Lines
import FieldHint.Proofs.Text.Integer
import FieldHint.Proofs.Brace.Depth
import FieldHint.Proofs.Cursor.Element
import FieldHint.Proofs.Cursor.Literal
import FieldHint.Proofs.Cursor.Contents
import FieldHint.Proofs.Struct.Header
import FieldHint.Proofs.Body.Row
import FieldHint.Proofs.Body.Declares
import FieldHint.Proofs.Body.Split
import FieldHint.Proofs.Brace.Span
import FieldHint.Proofs.Body.Nesting
import FieldHint.Proofs.Body.Line
import FieldHint.Proofs.Description.Fence
import FieldHint.Proofs.Struct.Definition
import FieldHint.Proofs.Description.Render
import FieldHint.Proofs.Description.Selection
import FieldHint.Proofs.Struct.RoundTrip
import FieldHint.Proofs.Declaration.Code
import FieldHint.Proofs.Declaration.ReadBack
import FieldHint.Proofs.Declaration.Comment
import FieldHint.Proofs.Declaration.Lookup
import FieldHint.Proofs.Help.Document
import FieldHint.Proofs.Help.Subject
import FieldHint.Proofs.Body.OneLine
import FieldHint.Proofs.Body.Parts
import FieldHint.Proofs.Body.Kept
import FieldHint.Proofs.Body.Spacing
import FieldHint.Proofs.Help.Signature
import FieldHint.Proofs.Help.Report
import FieldHint.Proofs.Position
import FieldHint.Proofs.Failure
import FieldHint.Proofs.CommandLine.Arguments
import FieldHint.Proofs.CommandLine.Agreement
import FieldHint.Proofs.Body.Layout
import FieldHint.Proofs.Body.Grammar
import FieldHint.Proofs.Help.Rows
import FieldHint.Proofs.Body.Fold
import FieldHint.Proofs.Body.Inline
import FieldHint.Proofs.Declaration.Group
import FieldHint.Proofs.Cursor.Stack
import FieldHint.Proofs.Cursor.Search
import FieldHint.Proofs.Cursor.Typing
import FieldHint.Proofs.Body.Remark
import FieldHint.Proofs.Body.Tree
import FieldHint.Proofs.Brace.Code
import FieldHint.Proofs.Brace.Matched
import FieldHint.Proofs.Declaration.Members
import FieldHint.Proofs.Declaration.Place
import FieldHint.Proofs.Declaration.Scan
import FieldHint.Proofs.Hover.Payload
import FieldHint.Proofs.Hover.Marked
import FieldHint.Proofs.Text.Hex
import FieldHint.Proofs.Json.Grammar
import FieldHint.Proofs.Json.String
import FieldHint.Proofs.Json.Number
import FieldHint.Proofs.Json.Value
import FieldHint.Proofs.Text.Utf8
import FieldHint.Proofs.Json.Lines
import FieldHint.Proofs.Json.Half
import FieldHint.Proofs.Json.Restored
import FieldHint.Proofs.Hover.Saved
import FieldHint.Proofs.Hover.Respelled
import FieldHint.Proofs.Json.Written
import FieldHint.Proofs.Help.Payload
