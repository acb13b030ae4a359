import Bundler.Cli.Arguments
import Bundler.Cli.Command
import Bundler.Cli.Project
import Bundler.Compiler
import Bundler.Config
import Bundler.Decimal.Shortest
import Bundler.Description
import Bundler.Digest.Xxh3
import Bundler.Edit
import Bundler.Error
import Bundler.FileTree
import Bundler.FrontEnd
import Bundler.Graph.Basic
import Bundler.Graph.Cycles
import Bundler.Graph.Script
import Bundler.Graph.Walk
import Bundler.Hook
import Bundler.JavaScript.Calls
import Bundler.JavaScript.CommonForm
import Bundler.JavaScript.Definitions
import Bundler.JavaScript.Expressions
import Bundler.JavaScript.Fragment
import Bundler.JavaScript.FrontEnd
import Bundler.JavaScript.Grammar
import Bundler.JavaScript.Literal
import Bundler.JavaScript.Markup
import Bundler.JavaScript.Parser
import Bundler.JavaScript.Patterns
import Bundler.JavaScript.Program
import Bundler.JavaScript.Recovery
import Bundler.JavaScript.Recovery.Attempt
import Bundler.JavaScript.Recovery.Front
import Bundler.JavaScript.Recovery.Part
import Bundler.JavaScript.Recovery.Search
import Bundler.JavaScript.Statements
import Bundler.JavaScript.Token
import Bundler.JavaScript.Tree
import Bundler.JavaScript.Trivia
import Bundler.Json.Parser
import Bundler.Json.Printer
import Bundler.Json.Value
import Bundler.Loader.Builtin
import Bundler.Loader.Pipeline
import Bundler.Loader.Rule
import Bundler.Main
import Bundler.ModuleFile
import Bundler.Options
import Bundler.Path
import Bundler.Plugin.Basic
import Bundler.Plugin.Builtin
import Bundler.Proofs.Decimal.Shortest
import Bundler.Proofs.Edit
import Bundler.Proofs.Edit.Insertion
import Bundler.Proofs.Edit.Splice
import Bundler.Proofs.FileTree.Change
import Bundler.Proofs.FileTree.Whole
import Bundler.Proofs.Graph.Bound
import Bundler.Proofs.Graph.Components
import Bundler.Proofs.Graph.Cycles
import Bundler.Proofs.Graph.Discovery
import Bundler.Proofs.Graph.Failure
import Bundler.Proofs.Graph.Identity
import Bundler.Proofs.Graph.Preorder
import Bundler.Proofs.Graph.Relocation
import Bundler.Proofs.Graph.Script
import Bundler.Proofs.Graph.Spelling
import Bundler.Proofs.Graph.Termination
import Bundler.Proofs.Graph.Walk
import Bundler.Proofs.JavaScript.Access
import Bundler.Proofs.JavaScript.Bindings
import Bundler.Proofs.JavaScript.BoundNames
import Bundler.Proofs.JavaScript.Boundaries
import Bundler.Proofs.JavaScript.Calls
import Bundler.Proofs.JavaScript.Cursor
import Bundler.Proofs.JavaScript.Data
import Bundler.Proofs.JavaScript.Definitions
import Bundler.Proofs.JavaScript.Edits
import Bundler.Proofs.JavaScript.Exports
import Bundler.Proofs.JavaScript.Expressions
import Bundler.Proofs.JavaScript.Gaps
import Bundler.Proofs.JavaScript.Links
import Bundler.Proofs.JavaScript.Literal
import Bundler.Proofs.JavaScript.Loads
import Bundler.Proofs.JavaScript.Prelude
import Bundler.Proofs.JavaScript.Reads
import Bundler.Proofs.JavaScript.Redirect
import Bundler.Proofs.JavaScript.Requests
import Bundler.Proofs.JavaScript.Sound
import Bundler.Proofs.JavaScript.Statements
import Bundler.Proofs.JavaScript.Takes
import Bundler.Proofs.JavaScript.Trivia
import Bundler.Proofs.Json.Kept
import Bundler.Proofs.Json.Literal
import Bundler.Proofs.Json.Number
import Bundler.Proofs.Json.Numeral
import Bundler.Proofs.Json.Reread
import Bundler.Proofs.Key.Below
import Bundler.Proofs.Key.Completion
import Bundler.Proofs.Key.Directory
import Bundler.Proofs.Key.Resolved
import Bundler.Proofs.Key.Target
import Bundler.Proofs.Loader.Inert
import Bundler.Proofs.Loader.Pipeline
import Bundler.Proofs.Options
import Bundler.Proofs.Path.Algebra
import Bundler.Proofs.Path.Below
import Bundler.Proofs.Path.Location
import Bundler.Proofs.Path.Moves
import Bundler.Proofs.Path.Reading
import Bundler.Proofs.Report
import Bundler.Proofs.Rewrite
import Bundler.Proofs.Run.History
import Bundler.Proofs.Run.Lifecycle
import Bundler.Proofs.Run.Manifest
import Bundler.Proofs.Run.Output
import Bundler.Regex.Basic
import Bundler.Regex.Fault
import Bundler.Regex.Parser
import Bundler.Regex.Property
import Bundler.Regex.Reader
import Bundler.Registry
import Bundler.Report.Basic
import Bundler.Report.Style
import Bundler.Report.Table
import Bundler.Rewrite
import Bundler.Settings
import Bundler.Specifier
import Bundler.Text.ByteCount
import Bundler.Text.CaseFold
import Bundler.Text.Category
import Bundler.Text.Columns
import Bundler.Text.Property
import Bundler.Text.Quoted
import Bundler.Text.Script
import Bundler.Text.Span
import Bundler.Text.Utf8
import Bundler.Toml.Number
import Bundler.Toml.Parser
import Bundler.Toml.Reader
import Bundler.Toml.Table
import Bundler.Toml.Text
import Bundler.Toml.Time
