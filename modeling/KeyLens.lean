import KeyLens.CommandLine.Arguments
import KeyLens.CommandLine.Commands
import KeyLens.CommandLine.Files
import KeyLens.Config.Basic
import KeyLens.Config.Reader
import KeyLens.Config.Search
import KeyLens.Declaration
import KeyLens.FileTree
import KeyLens.Glob.Expand
import KeyLens.Glob.Pattern
import KeyLens.Host
import KeyLens.Json.Basic
import KeyLens.Json.Binary64
import KeyLens.Json.Failure
import KeyLens.Json.Kind
import KeyLens.Json.Lookup
import KeyLens.Json.Printer
import KeyLens.Json.Reader
import KeyLens.Json.Shortest
import KeyLens.Json.Skip
import KeyLens.Key
import KeyLens.Main
import KeyLens.NamespaceOption
import KeyLens.Namespaces
import KeyLens.Node
import KeyLens.Path
import KeyLens.Present.Hint
import KeyLens.Present.Hover
import KeyLens.Present.Markup
import KeyLens.Present.Report
import KeyLens.Present.Styled
import KeyLens.Present.Truncate
import KeyLens.Program.Elements
import KeyLens.Program.Expressions
import KeyLens.Program.Functions
import KeyLens.Program.Goal
import KeyLens.Program.Grammar
import KeyLens.Program.Lexeme
import KeyLens.Program.Literal
import KeyLens.Program.Reader
import KeyLens.Program.Reference
import KeyLens.Program.Statements
import KeyLens.Program.Tree
import KeyLens.Program.Types
import KeyLens.Project
import KeyLens.Scan
import KeyLens.Selector
import KeyLens.Session.Basic
import KeyLens.Session.Request
import KeyLens.Site
import KeyLens.Source.Bytes
import KeyLens.Source.LineIndex
import KeyLens.Source.Span
import KeyLens.Source.Text
import KeyLens.Store.Basic
import KeyLens.Store.Cache
import KeyLens.Store.Provider
import KeyLens.Text.Alphanumeric
import KeyLens.Text.Blank
import KeyLens.Text.ColumnWidth
import KeyLens.Text.DisplayWidth
import KeyLens.Text.Emoji
import KeyLens.Text.Identifier
import KeyLens.Text.InversionList
import KeyLens.Text.Ligature
import KeyLens.Text.Printable
import KeyLens.Text.Quoted
import KeyLens.Text.Word
import KeyLens.Proofs.Store.Freshness
import KeyLens.Proofs.Store.Meaning
import KeyLens.Proofs.Store.Transparency
import KeyLens.Proofs.Files.Spelling
import KeyLens.Proofs.Files.Stamps
import KeyLens.Proofs.Store.Interleaving
import KeyLens.Proofs.Locate.Innermost
import KeyLens.Proofs.Present.Caret
import KeyLens.Proofs.NamespaceOption.Grammar
import KeyLens.Proofs.NamespaceOption.Reading
import KeyLens.Proofs.Files.Canonical
import KeyLens.Proofs.Session.Answers
import KeyLens.Proofs.Session.Transparency
import KeyLens.Proofs.Program.Spans
import KeyLens.Proofs.Program.Order
import KeyLens.Proofs.Program.Nesting
import KeyLens.Proofs.Program.Forms
import KeyLens.Proofs.Present.Hinted
import KeyLens.Proofs.Session.HintedKeys
import KeyLens.Proofs.Files.Joining
import KeyLens.Proofs.Scan.Ignores
import KeyLens.Proofs.Selector.Tolerance
import KeyLens.Proofs.Declaration.Grammar
import KeyLens.Proofs.Declaration.Search
import KeyLens.Proofs.Declaration.Lists
import KeyLens.Proofs.Declaration.Nearest
import KeyLens.Proofs.Scan.Linkless
import KeyLens.Proofs.Store.Pool
import KeyLens.Proofs.CommandLine.Collected
import KeyLens.Proofs.CommandLine.Schedules
import KeyLens.Proofs.Source.LineIndex
import KeyLens.Proofs.Declaration.Options
import KeyLens.Proofs.NamespaceOption.Rows
import KeyLens.Proofs.NamespaceOption.Strings
import KeyLens.Proofs.NamespaceOption.Conditionals
import KeyLens.Proofs.Locate.Enclosing
import KeyLens.Proofs.Store.Lookups
import KeyLens.Proofs.Store.FirstMatch
import KeyLens.Proofs.Store.Kept
import KeyLens.Proofs.Present.FirstLanguage
import KeyLens.Proofs.Present.ShownNamespaces
import KeyLens.Proofs.Selector.Properties
import KeyLens.Proofs.Files.Steps
import KeyLens.Proofs.Glob.Expansion
import KeyLens.Proofs.Glob.Pieces
import KeyLens.Proofs.Glob.Descent
import KeyLens.Proofs.Scan.Starts
import KeyLens.Proofs.Scan.Exactness
import KeyLens.Proofs.Config.Checks
import KeyLens.Proofs.Files.Placement
import KeyLens.Proofs.Glob.Placement
import KeyLens.Proofs.Scan.Placement
import KeyLens.Proofs.Files.Below
import KeyLens.Proofs.Store.Containment
import KeyLens.Proofs.Config.Loading
import KeyLens.Proofs.Files.Written
import KeyLens.Proofs.Session.Racing
import KeyLens.Proofs.Config.Overridden
import KeyLens.Proofs.Json.Quoted
import KeyLens.Proofs.Config.Parts
import KeyLens.Proofs.Json.Rows
import KeyLens.Proofs.Config.RoundTrip
import KeyLens.Proofs.Files.WrittenAt
import KeyLens.Proofs.Session.WrittenConfig
import KeyLens.Proofs.Files.Ancestors
import KeyLens.Proofs.Config.Nearest
import KeyLens.Proofs.Text.Replacing
import KeyLens.Proofs.Present.Tags
import KeyLens.Proofs.Present.HoverTags
import KeyLens.Proofs.Text.Columns
import KeyLens.Proofs.Source.LastCharacter
import KeyLens.Proofs.Present.CaretColumns
import KeyLens.Proofs.CommandLine.Summaries
import KeyLens.Proofs.Present.StyleSequences
import KeyLens.Proofs.Json.DottedKeys
import KeyLens.Proofs.Locate.WellFormed
import KeyLens.Proofs.Present.Shortened
