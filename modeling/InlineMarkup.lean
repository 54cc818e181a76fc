import InlineMarkup.Call.Escape
import InlineMarkup.Call.Names
import InlineMarkup.Call.Render
import InlineMarkup.Cli.Arguments
import InlineMarkup.Cli.Integer
import InlineMarkup.Cli.Options
import InlineMarkup.Cli.Session
import InlineMarkup.Disk
import InlineMarkup.Disk.File
import InlineMarkup.Disk.Utf8
import InlineMarkup.Element
import InlineMarkup.Element.Cursor
import InlineMarkup.Element.Parser
import InlineMarkup.Expansion
import InlineMarkup.Glob
import InlineMarkup.Glob.CharClass
import InlineMarkup.Log
import InlineMarkup.Main
import InlineMarkup.MarkupError
import InlineMarkup.Path
import InlineMarkup.Path.Output
import InlineMarkup.Project.Build
import InlineMarkup.Project.Failure
import InlineMarkup.Project.Root
import InlineMarkup.Project.Sources
import InlineMarkup.Region
import InlineMarkup.Report
import InlineMarkup.Report.Duration
import InlineMarkup.Report.Json
import InlineMarkup.Report.Problem
import InlineMarkup.Retry
import InlineMarkup.Retry.Pause
import InlineMarkup.Settings
import InlineMarkup.Settings.Override
import InlineMarkup.Text.Basic
import InlineMarkup.Text.Blank
import InlineMarkup.Text.CodeRanges
import InlineMarkup.Text.Digits
import InlineMarkup.Text.Identifier
import InlineMarkup.Text.Letter
import InlineMarkup.Text.LetterCase
import InlineMarkup.Text.Numeric
import InlineMarkup.Text.Printable
import InlineMarkup.Text.Quoted
import InlineMarkup.Text.Trim
import InlineMarkup.Token
import InlineMarkup.Token.Lexer
import InlineMarkup.Token.Literal
import InlineMarkup.Token.Wrapped
import InlineMarkup.Toml.Literal
import InlineMarkup.Toml.Parser
import InlineMarkup.Toml.Value
import InlineMarkup.Watch
import InlineMarkup.Proofs.Characters
import InlineMarkup.Proofs.Resolving
import InlineMarkup.Proofs.Trees
import InlineMarkup.Proofs.Directories
import InlineMarkup.Proofs.Literals
import InlineMarkup.Proofs.LiteralGrammar
import InlineMarkup.Proofs.Escaping
import InlineMarkup.Proofs.Grammar
import InlineMarkup.Proofs.SyntaxFaults
import InlineMarkup.Proofs.Lexemes
import InlineMarkup.Proofs.WellFormed
import InlineMarkup.Proofs.Printing
import InlineMarkup.Proofs.MarkCount
import InlineMarkup.Proofs.AcceptedNames
import InlineMarkup.Proofs.Placement
import InlineMarkup.Proofs.Passes
import InlineMarkup.Proofs.Termination
import InlineMarkup.Proofs.Fixpoint
import InlineMarkup.Proofs.Extraction
import InlineMarkup.Proofs.FailureCount
import InlineMarkup.Proofs.Acceptance
import InlineMarkup.Proofs.Quotes
import InlineMarkup.Proofs.Substitution
import InlineMarkup.Proofs.Writing
import InlineMarkup.Proofs.Building
import InlineMarkup.Proofs.Collisions
import InlineMarkup.Proofs.Confinement
import InlineMarkup.Proofs.Watching
import InlineMarkup.Proofs.Spans
import InlineMarkup.Proofs.Boundaries
import InlineMarkup.Proofs.Unterminated
import InlineMarkup.Proofs.RegionFailures
import InlineMarkup.Proofs.WatchTrace
import InlineMarkup.Proofs.Openings
import InlineMarkup.Proofs.SelfContained
import InlineMarkup.Proofs.Layout
import InlineMarkup.Proofs.Atomicity
import InlineMarkup.Proofs.Globs
import InlineMarkup.Proofs.Stopping
import InlineMarkup.Proofs.Eligibility
import InlineMarkup.Proofs.Attempts
import InlineMarkup.Proofs.DottedNames
import InlineMarkup.Proofs.ReportViews
import InlineMarkup.Proofs.Recognition
import InlineMarkup.Proofs.Balance
import InlineMarkup.Proofs.CursorSteps
