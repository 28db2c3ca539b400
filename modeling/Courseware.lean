import Courseware.Basic.Execution
import Courseware.Basic.Scanning
import Courseware.Basic.Statement
import Courseware.Command.Assignment
import Courseware.Command.Basic
import Courseware.Command.Error
import Courseware.Command.Execution
import Courseware.Command.Family
import Courseware.CommandLine.Basic
import Courseware.CommandLine.Files
import Courseware.CommandLine.Options
import Courseware.Debugger
import Courseware.Engine.Basic
import Courseware.Engine.Loop
import Courseware.Engine.Session
import Courseware.Event.Basic
import Courseware.Event.Bus
import Courseware.Expr.Arithmetic
import Courseware.Expr.Builtin
import Courseware.Expr.Error
import Courseware.Expr.Evaluation
import Courseware.Expr.Operator
import Courseware.Expr.Postfix
import Courseware.Expr.Token
import Courseware.Host
import Courseware.Logo.Execution
import Courseware.Logo.Reference
import Courseware.Logo.Sentence
import Courseware.Logo.Verb
import Courseware.Logo.Word
import Courseware.Machine.Basic
import Courseware.Main
import Courseware.Number.Binary
import Courseware.Number.Decimal
import Courseware.Number.Layout
import Courseware.Number.Reading
import Courseware.Number.Shortest
import Courseware.Number.Word
import Courseware.Pilot.Command
import Courseware.Pilot.Execution
import Courseware.Program.Basic
import Courseware.Program.Loading
import Courseware.Proofs.Command.Composition
import Courseware.Proofs.Command.Confinement
import Courseware.Proofs.Command.Deeds
import Courseware.Proofs.Command.Depth
import Courseware.Proofs.Command.Listing
import Courseware.Proofs.Command.Nesting
import Courseware.Proofs.Command.Steadiness
import Courseware.Proofs.Command.Transfers
import Courseware.Proofs.Engine.Ceiling
import Courseware.Proofs.Engine.Confinement
import Courseware.Proofs.Engine.HigherLimit
import Courseware.Proofs.Engine.Interleaving
import Courseware.Proofs.Engine.Recording
import Courseware.Proofs.Engine.Rounds
import Courseware.Proofs.Engine.Sessions
import Courseware.Proofs.Engine.Shadowing
import Courseware.Proofs.Engine.Stopping
import Courseware.Proofs.Engine.Suppression
import Courseware.Proofs.Engine.Trace
import Courseware.Proofs.Engine.Transparency
import Courseware.Proofs.Expr.ShuntingYard
import Courseware.Proofs.Expr.Tree
import Courseware.Proofs.Expr.TreeEvaluation
import Courseware.Proofs.Logo.Reading
import Courseware.Proofs.Logo.Repetition
import Courseware.Proofs.Machine.Charging
import Courseware.Proofs.Machine.Composition
import Courseware.Proofs.Machine.Confinement
import Courseware.Proofs.Machine.HigherLimit
import Courseware.Proofs.Machine.Recording
import Courseware.Proofs.Machine.Visibility
import Courseware.Proofs.Program.Index
import Courseware.Proofs.Program.Places
import Courseware.Proofs.Text.Canonical
import Courseware.Proofs.Text.Words
import Courseware.Proofs.Verdict.History
import Courseware.Random
import Courseware.Settings.Basic
import Courseware.Settings.Document
import Courseware.Settings.EnvFile
import Courseware.Settings.Reading
import Courseware.Settings.Tree
import Courseware.Snapshot
import Courseware.Table
import Courseware.Text.Basic
import Courseware.Text.Blank
import Courseware.Text.Casing
import Courseware.Text.Escape
import Courseware.Text.Letter
import Courseware.Text.Literal
import Courseware.Turtle
import Courseware.Value
import Courseware.Variables
import Courseware.Verdict
import Courseware.Proofs.Engine.Pausing
import Courseware.Proofs.Engine.Forgetting
import Courseware.Proofs.Expr.Scanning
import Courseware.Proofs.Expr.Splicing
import Courseware.Proofs.Logo.References
import Courseware.Proofs.Command.Family
import Courseware.Proofs.Logo.TextArguments
import Courseware.Proofs.Logo.Sequencing
import Courseware.Proofs.Logo.Quotation
import Courseware.Proofs.Logo.Brackets
import Courseware.Proofs.Logo.BracketErrors
import Courseware.Proofs.Variables.Template
import Courseware.Proofs.Variables.Idempotence
import Courseware.Proofs.Number.WordOrder
import Courseware.Proofs.Basic.Counting
import Courseware.Proofs.Command.Reading
import Courseware.Proofs.Command.CleanFailure
import Courseware.Proofs.Basic.DataReading
import Courseware.Proofs.Program.DataItems
import Courseware.Proofs.Basic.Printing
import Courseware.Proofs.Expr.Spacing
import Courseware.Proofs.Basic.Branching
import Courseware.Proofs.Program.Labels
import Courseware.Proofs.Program.Procedures
import Courseware.Proofs.Program.Layout
import Courseware.Proofs.Expr.HigherLimits
import Courseware.Proofs.Expr.LetterCase
import Courseware.Proofs.Expr.Spelling
import Courseware.Proofs.Expr.Exactness
import Courseware.Proofs.Event.Delivery
import Courseware.Proofs.Command.Balance
import Courseware.Proofs.Expr.Extremes
import Courseware.Proofs.Number.Numerals
import Courseware.Proofs.Expr.Numerals
import Courseware.Proofs.Host.Requests
import Courseware.Proofs.Basic.LoopStatements
