import VhdlFrontEnd.Arena
import VhdlFrontEnd.Batch
import VhdlFrontEnd.Command.Arguments
import VhdlFrontEnd.Command.Output
import VhdlFrontEnd.Command.Run
import VhdlFrontEnd.Diagnostic.Basic
import VhdlFrontEnd.Diagnostic.Level
import VhdlFrontEnd.Diagnostic.Render
import VhdlFrontEnd.Diagnostic.Reportable
import VhdlFrontEnd.Disk
import VhdlFrontEnd.Disk.Tree
import VhdlFrontEnd.FrontEnd
import VhdlFrontEnd.Lexeme.Basic
import VhdlFrontEnd.Lexeme.Number
import VhdlFrontEnd.Lexeme.Operator
import VhdlFrontEnd.Lexeme.Quoted
import VhdlFrontEnd.Lexeme.Read
import VhdlFrontEnd.Lexer
import VhdlFrontEnd.Log.Directive
import VhdlFrontEnd.Log.Event
import VhdlFrontEnd.Log.Filter
import VhdlFrontEnd.Log.Line
import VhdlFrontEnd.Log.Pattern
import VhdlFrontEnd.Log.Trace
import VhdlFrontEnd.Log.Value
import VhdlFrontEnd.Main
import VhdlFrontEnd.Outline.Header
import VhdlFrontEnd.Outline.Parse
import VhdlFrontEnd.Outline.Statement
import VhdlFrontEnd.Outline.Unit
import VhdlFrontEnd.Path
import VhdlFrontEnd.Piece
import VhdlFrontEnd.Position
import VhdlFrontEnd.Scan
import VhdlFrontEnd.Settings
import VhdlFrontEnd.Source.Basic
import VhdlFrontEnd.Source.Classify
import VhdlFrontEnd.Source.Comment
import VhdlFrontEnd.Source.Load
import VhdlFrontEnd.Text.Alphanumeric
import VhdlFrontEnd.Text.Charset
import VhdlFrontEnd.Text.CodeRange
import VhdlFrontEnd.Text.Column
import VhdlFrontEnd.Text.Cursor
import VhdlFrontEnd.Text.Decode
import VhdlFrontEnd.Text.Escape
import VhdlFrontEnd.Text.Identifier
import VhdlFrontEnd.Text.Space
import VhdlFrontEnd.Text.Visible
import VhdlFrontEnd.Token.Basic
import VhdlFrontEnd.Token.Keyword
import VhdlFrontEnd.Token.Kind
import VhdlFrontEnd.Token.Symbol
import VhdlFrontEnd.Toml.Document
import VhdlFrontEnd.Toml.Literal
import VhdlFrontEnd.Toml.Moment
import VhdlFrontEnd.Toml.Number
import VhdlFrontEnd.Toml.Reader
import VhdlFrontEnd.Toml.Value
import VhdlFrontEnd.Proofs.Mark
import VhdlFrontEnd.Proofs.Number
import VhdlFrontEnd.Proofs.Pieces
import VhdlFrontEnd.Proofs.Placing
import VhdlFrontEnd.Proofs.Tokens
import VhdlFrontEnd.Proofs.Tiling
import VhdlFrontEnd.Proofs.TokenOrder
import VhdlFrontEnd.Proofs.TokenSpelling
import VhdlFrontEnd.Proofs.InStep
import VhdlFrontEnd.Proofs.Agreement
import VhdlFrontEnd.Proofs.Grammar
import VhdlFrontEnd.Proofs.Parts
import VhdlFrontEnd.Proofs.Headers
import VhdlFrontEnd.Proofs.OutlineReading
import VhdlFrontEnd.Proofs.OutlineReports
import VhdlFrontEnd.Proofs.LineReports
import VhdlFrontEnd.Proofs.Run
import VhdlFrontEnd.Proofs.ReportPlaces
import VhdlFrontEnd.Proofs.Shown
import VhdlFrontEnd.Proofs.Suppression
import VhdlFrontEnd.Proofs.Renumbering
import VhdlFrontEnd.Proofs.Below
import VhdlFrontEnd.Proofs.Renaming
import VhdlFrontEnd.Proofs.Sequence
import VhdlFrontEnd.Proofs.Joined
import VhdlFrontEnd.Proofs.Concatenation
import VhdlFrontEnd.Proofs.Region
import VhdlFrontEnd.Proofs.DistinctPaths
import VhdlFrontEnd.Proofs.EmptyLine
import VhdlFrontEnd.Proofs.Carets
import VhdlFrontEnd.Proofs.IgnoredText
import VhdlFrontEnd.Proofs.Invocation
import VhdlFrontEnd.Proofs.LongestMatch
import VhdlFrontEnd.Proofs.NumberReading
import VhdlFrontEnd.Proofs.Boundary
import VhdlFrontEnd.Proofs.Commented
import VhdlFrontEnd.Proofs.TickRule
import VhdlFrontEnd.Proofs.Upper
import VhdlFrontEnd.Proofs.UpperLexeme
import VhdlFrontEnd.Proofs.UpperSource
import VhdlFrontEnd.Proofs.UpperRun
import VhdlFrontEnd.Proofs.Kept
import VhdlFrontEnd.Proofs.PhysicalLines
import VhdlFrontEnd.Proofs.Quoting
import VhdlFrontEnd.Proofs.ByteOrderMark
import VhdlFrontEnd.Proofs.Words
import VhdlFrontEnd.Proofs.ReportColumns
import VhdlFrontEnd.Proofs.NestedOpeners
import VhdlFrontEnd.Proofs.SelectedNames
import VhdlFrontEnd.Proofs.ByteCursor
import VhdlFrontEnd.Proofs.ColumnMeasure
import VhdlFrontEnd.Proofs.WorkerPool
import VhdlFrontEnd.Proofs.Loop
import VhdlFrontEnd.Proofs.OutlineByIndex
import VhdlFrontEnd.Proofs.OutlineProgress
import VhdlFrontEnd.Proofs.Slices
import VhdlFrontEnd.Proofs.SlicedLines
import VhdlFrontEnd.Proofs.SlicedRun
