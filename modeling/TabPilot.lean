import TabPilot.Client.Address.Host
import TabPilot.Client.Address.Request
import TabPilot.Client.Address.Url
import TabPilot.Client.Connection
import TabPilot.Client.DebugTarget
import TabPilot.Client.Inbound
import TabPilot.Client.Tab
import TabPilot.Command.Catalogue
import TabPilot.Command.Core
import TabPilot.Command.Events
import TabPilot.Command.Formatting
import TabPilot.Command.Invocation
import TabPilot.Command.Operation
import TabPilot.Command.Set
import TabPilot.Command.Signature
import TabPilot.Command.Variables
import TabPilot.Decimal.Binary64
import TabPilot.Decimal.Layout
import TabPilot.Decimal.Reader
import TabPilot.Decimal.Shortest
import TabPilot.Error
import TabPilot.Event.Basic
import TabPilot.Event.Glob
import TabPilot.Event.Registry
import TabPilot.Event.Slot
import TabPilot.Event.Timeline
import TabPilot.Event.Wait
import TabPilot.Event.Waiters
import TabPilot.Path.Access
import TabPilot.Path.Basic
import TabPilot.Pattern.Basic
import TabPilot.Pattern.CharSet
import TabPilot.Pattern.Node
import TabPilot.Pattern.Program
import TabPilot.Pattern.Read
import TabPilot.Pattern.Syntax
import TabPilot.Proofs.Client.Callbacks
import TabPilot.Proofs.Client.HandlerIds
import TabPilot.Proofs.Command.Beside
import TabPilot.Proofs.Command.Options
import TabPilot.Proofs.Command.Scopes
import TabPilot.Proofs.Command.Splitting
import TabPilot.Proofs.Command.Twins
import TabPilot.Proofs.Command.Untouched
import TabPilot.Proofs.Connection.Correlation
import TabPilot.Proofs.Connection.Delivery
import TabPilot.Proofs.Connection.Dispatching
import TabPilot.Proofs.Connection.Navigation
import TabPilot.Proofs.Connection.Stopping
import TabPilot.Proofs.Connection.Traffic
import TabPilot.Proofs.Decimal.Comparing
import TabPilot.Proofs.Decimal.Equality
import TabPilot.Proofs.Decimal.Negation
import TabPilot.Proofs.Decimal.Quotient
import TabPilot.Proofs.Decimal.Rounding
import TabPilot.Proofs.Event.Awaited
import TabPilot.Proofs.Event.EventNames
import TabPilot.Proofs.Event.FanOut
import TabPilot.Proofs.Event.Globs
import TabPilot.Proofs.Event.Quiet
import TabPilot.Proofs.Event.Vigils
import TabPilot.Proofs.Event.WaiterTable
import TabPilot.Proofs.Event.WakeUp
import TabPilot.Proofs.History
import TabPilot.Proofs.Outcome
import TabPilot.Proofs.Path.Location
import TabPilot.Proofs.Path.References
import TabPilot.Proofs.Path.Removal
import TabPilot.Proofs.Path.Spelling
import TabPilot.Proofs.Run.Blame
import TabPilot.Proofs.Run.Blocks
import TabPilot.Proofs.Run.Confinement
import TabPilot.Proofs.Run.Course
import TabPilot.Proofs.Run.Effects
import TabPilot.Proofs.Run.ExactTexts
import TabPilot.Proofs.Run.Floats
import TabPilot.Proofs.Run.Isolation
import TabPilot.Proofs.Run.Jumps
import TabPilot.Proofs.Run.LoopRuns
import TabPilot.Proofs.Run.LoopScopes
import TabPilot.Proofs.Run.LoopSteps
import TabPilot.Proofs.Run.Nesting
import TabPilot.Proofs.Run.Registration
import TabPilot.Proofs.Run.Setting
import TabPilot.Proofs.Run.Steady
import TabPilot.Proofs.Run.Twins
import TabPilot.Proofs.Scope.Accesses
import TabPilot.Proofs.Scope.Assigning
import TabPilot.Proofs.Scope.Changes
import TabPilot.Proofs.Scope.FailedWriting
import TabPilot.Proofs.Scope.Floats
import TabPilot.Proofs.Scope.Interpolation
import TabPilot.Proofs.Scope.LoopVariables
import TabPilot.Proofs.Scope.Names
import TabPilot.Proofs.Scope.Templates
import TabPilot.Proofs.Scope.Twins
import TabPilot.Proofs.Scope.Unsetting
import TabPilot.Proofs.Scope.Writing
import TabPilot.Proofs.Script.Blocks
import TabPilot.Proofs.Script.Consumed
import TabPilot.Proofs.Script.Covering
import TabPilot.Proofs.Script.Excerpts
import TabPilot.Proofs.Script.Expressions
import TabPilot.Proofs.Script.Headers
import TabPilot.Proofs.Script.Heredoc
import TabPilot.Proofs.Script.Lexing
import TabPilot.Proofs.Script.LineEnds
import TabPilot.Proofs.Script.LoopHeaders
import TabPilot.Proofs.Script.Parsed
import TabPilot.Proofs.Script.Phrases
import TabPilot.Proofs.Script.Places
import TabPilot.Proofs.Script.Precedence
import TabPilot.Proofs.Script.References
import TabPilot.Proofs.Script.RoundTrip
import TabPilot.Proofs.Script.Scanned
import TabPilot.Proofs.Script.Scanning
import TabPilot.Proofs.Script.Shape
import TabPilot.Proofs.Script.Slots
import TabPilot.Proofs.Script.Spelled
import TabPilot.Proofs.Script.Standalone
import TabPilot.Proofs.Script.Texts
import TabPilot.Proofs.Script.Written
import TabPilot.Proofs.Text.Separators
import TabPilot.Proofs.Text.Words
import TabPilot.Proofs.Value.Arithmetic
import TabPilot.Proofs.Value.Comparison
import TabPilot.Proofs.Value.Floats
import TabPilot.Proofs.Value.JsonText
import TabPilot.Proofs.Value.Ordered
import TabPilot.Proofs.Value.WholeNumbers
import TabPilot.Proofs.Wire.Reassembly
import TabPilot.Rehearsal.Activity
import TabPilot.Rehearsal.Basic
import TabPilot.Rehearsal.Debugger
import TabPilot.Rehearsal.Session
import TabPilot.Run.Assignment
import TabPilot.Run.Dispatch
import TabPilot.Run.Expression
import TabPilot.Run.Failure
import TabPilot.Run.Machine
import TabPilot.Run.Script
import TabPilot.Scope.Handles
import TabPilot.Scope.Store
import TabPilot.Scope.Template
import TabPilot.Script.Fault
import TabPilot.Script.File
import TabPilot.Script.Grammar.Cursor
import TabPilot.Script.Grammar.Expression
import TabPilot.Script.Grammar.Statement
import TabPilot.Script.Misreading
import TabPilot.Script.Position
import TabPilot.Script.Token.Basic
import TabPilot.Script.Token.Lexeme
import TabPilot.Script.Token.Scan
import TabPilot.Script.Tree
import TabPilot.Text.Blank
import TabPilot.Text.Category
import TabPilot.Text.Letter
import TabPilot.Text.LetterCase
import TabPilot.Text.Ranges
import TabPilot.Text.Split
import TabPilot.Time
import TabPilot.Value.Autotype
import TabPilot.Value.Basic
import TabPilot.Value.Json
import TabPilot.Value.Operator
import TabPilot.Value.Record
import TabPilot.Wire.Framing
import TabPilot.Wire.Json
import TabPilot.Word
import TabPilot.World
