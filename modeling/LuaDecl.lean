import LuaDecl.Catalog
import LuaDecl.CommandLine.Arguments
import LuaDecl.CommandLine.Directive
import LuaDecl.CommandLine.Help
import LuaDecl.CommandLine.LogFilter
import LuaDecl.CommandLine.Outcome
import LuaDecl.CommandLine.Threshold
import LuaDecl.Comment
import LuaDecl.Comment.Cursor
import LuaDecl.Comment.Line
import LuaDecl.Comment.Long
import LuaDecl.Definition.Fits
import LuaDecl.Definition.Hit
import LuaDecl.Definition.Shape
import LuaDecl.Discovery
import LuaDecl.Disk
import LuaDecl.Event
import LuaDecl.Extraction
import LuaDecl.FileSystem.Access
import LuaDecl.FileSystem.Changes
import LuaDecl.FileSystem.Entry
import LuaDecl.FileSystem.Fault
import LuaDecl.FileSystem.Path
import LuaDecl.FileSystem.Resolve
import LuaDecl.FileSystem.Walk
import LuaDecl.Generation
import LuaDecl.Logged
import LuaDecl.Main
import LuaDecl.Parameters
import LuaDecl.Proofs.Catalog.Coverage
import LuaDecl.Proofs.Catalog.FirstSeen
import LuaDecl.Proofs.Catalog.Keys
import LuaDecl.Proofs.Catalog.Sources
import LuaDecl.Proofs.CommandLine.Outcome
import LuaDecl.Proofs.Comment.Cursor
import LuaDecl.Proofs.Comment.Dashes
import LuaDecl.Proofs.Comment.Decomposition
import LuaDecl.Proofs.Comment.Immunity
import LuaDecl.Proofs.Comment.Lexer
import LuaDecl.Proofs.Comment.LineEnding
import LuaDecl.Proofs.Comment.NormalForm
import LuaDecl.Proofs.Comment.Segments
import LuaDecl.Proofs.Definition.Captures
import LuaDecl.Proofs.Definition.LineEnding
import LuaDecl.Proofs.Definition.Parenthesis
import LuaDecl.Proofs.Definition.Recognition
import LuaDecl.Proofs.Definition.Scan
import LuaDecl.Proofs.Definition.Subject
import LuaDecl.Proofs.Discovery.Completeness
import LuaDecl.Proofs.Discovery.Expansion
import LuaDecl.Proofs.Discovery.Growth
import LuaDecl.Proofs.Discovery.Identity
import LuaDecl.Proofs.Discovery.Order
import LuaDecl.Proofs.Discovery.Sources
import LuaDecl.Proofs.Discovery.Spelling
import LuaDecl.Proofs.Extraction.Appending
import LuaDecl.Proofs.Extraction.Exclusion
import LuaDecl.Proofs.Extraction.LineEnding
import LuaDecl.Proofs.Extraction.LocalGuard
import LuaDecl.Proofs.Extraction.Passages
import LuaDecl.Proofs.Extraction.WellFormed
import LuaDecl.Proofs.FileSystem.Below
import LuaDecl.Proofs.FileSystem.Follow
import LuaDecl.Proofs.FileSystem.Growth
import LuaDecl.Proofs.FileSystem.Limits
import LuaDecl.Proofs.FileSystem.Making
import LuaDecl.Proofs.FileSystem.Names
import LuaDecl.Proofs.FileSystem.Passage
import LuaDecl.Proofs.FileSystem.Put
import LuaDecl.Proofs.FileSystem.Tidy
import LuaDecl.Proofs.FileSystem.WalkOrder
import LuaDecl.Proofs.Generation.Accounting
import LuaDecl.Proofs.Generation.Regeneration
import LuaDecl.Proofs.Generation.Result
import LuaDecl.Proofs.Generation.StrayBytes
import LuaDecl.Proofs.Generation.Writing
import LuaDecl.Proofs.ScanConfig.Loading
import LuaDecl.Proofs.ScanConfig.Meaning
import LuaDecl.Proofs.ScanConfig.Suggestion
import LuaDecl.Proofs.Stub.Decoding
import LuaDecl.Proofs.Stub.Layout
import LuaDecl.Proofs.Stub.LineFeeds
import LuaDecl.Proofs.Stub.Lines
import LuaDecl.Proofs.Stub.Order
import LuaDecl.Proofs.Stub.Parameters
import LuaDecl.Proofs.Stub.Rereading
import LuaDecl.Proofs.Stub.RoundTrip
import LuaDecl.Proofs.Text.Bytes
import LuaDecl.Proofs.Text.EditDistance
import LuaDecl.Proofs.Text.Edits
import LuaDecl.Proofs.Text.LastWord
import LuaDecl.Proofs.Text.LineEnding
import LuaDecl.Proofs.Text.Lines
import LuaDecl.Proofs.Text.Marks
import LuaDecl.Proofs.Text.Pieces
import LuaDecl.Proofs.Text.Utf8
import LuaDecl.RunError
import LuaDecl.ScanConfig
import LuaDecl.ScanConfig.Loading
import LuaDecl.ScanConfig.Reading
import LuaDecl.ScanConfig.Suggestion
import LuaDecl.Signature
import LuaDecl.SortedMap
import LuaDecl.Stub
import LuaDecl.Summary
import LuaDecl.Text.Alphanumeric
import LuaDecl.Text.AlphanumericRanges
import LuaDecl.Text.Blank
import LuaDecl.Text.Bytes
import LuaDecl.Text.EditDistance
import LuaDecl.Text.Hexadecimal
import LuaDecl.Text.JsonString
import LuaDecl.Text.Numeral
import LuaDecl.Text.Pattern
import LuaDecl.Text.Pieces
import LuaDecl.Text.Utf8
import LuaDecl.Text.Word
import LuaDecl.Text.WordRanges
import LuaDecl.Toml.Document
import LuaDecl.Toml.Expression
import LuaDecl.Toml.Layout
import LuaDecl.Toml.Moment
import LuaDecl.Toml.MomentTable
import LuaDecl.Toml.Number
import LuaDecl.Toml.QuotedText
import LuaDecl.Toml.Table
import LuaDecl.Toml.Value
