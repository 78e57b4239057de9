import EarleyChart.Chart.Arena
import EarleyChart.Chart.Basic
import EarleyChart.Chart.Column
import EarleyChart.Chart.Item
import EarleyChart.Chart.Worklist
import EarleyChart.Forest.Basic
import EarleyChart.Forest.Build
import EarleyChart.Forest.Count
import EarleyChart.Forest.Graph
import EarleyChart.Forest.Tree
import EarleyChart.Grammar.Basic
import EarleyChart.Grammar.Definition
import EarleyChart.Grammar.Generating
import EarleyChart.Grammar.Graph
import EarleyChart.Grammar.Warning
import EarleyChart.Json.Basic
import EarleyChart.Json.Grammar
import EarleyChart.Json.Reader
import EarleyChart.Json.Record
import EarleyChart.Json.Settings
import EarleyChart.Json.Token
import EarleyChart.Json.TokenDef
import EarleyChart.Lexer.Basic
import EarleyChart.Lexer.FirstBytes
import EarleyChart.Lexer.Standard
import EarleyChart.Parser.Basic
import EarleyChart.Parser.Batch
import EarleyChart.Parser.Closure
import EarleyChart.Parser.Config
import EarleyChart.Parser.Recovery
import EarleyChart.Parser.Rejection
import EarleyChart.Parser.Run
import EarleyChart.Parser.Summary
import EarleyChart.Pattern.Basic
import EarleyChart.Pattern.CharSet
import EarleyChart.Pattern.Class
import EarleyChart.Pattern.Escape
import EarleyChart.Pattern.Flags
import EarleyChart.Pattern.Footprint
import EarleyChart.Pattern.Look
import EarleyChart.Pattern.Named
import EarleyChart.Pattern.Program
import EarleyChart.Pattern.Search
import EarleyChart.Pattern.Syntax
import EarleyChart.Proofs.Chart.Agreement
import EarleyChart.Proofs.Chart.Below
import EarleyChart.Proofs.Chart.Calls
import EarleyChart.Proofs.Chart.Candidates
import EarleyChart.Proofs.Chart.Census
import EarleyChart.Proofs.Chart.Checked
import EarleyChart.Proofs.Chart.Creation
import EarleyChart.Proofs.Chart.Entry
import EarleyChart.Proofs.Chart.Extension
import EarleyChart.Proofs.Chart.Filing
import EarleyChart.Proofs.Chart.Growth
import EarleyChart.Proofs.Chart.Holdings
import EarleyChart.Proofs.Chart.Insertion
import EarleyChart.Proofs.Chart.Opening
import EarleyChart.Proofs.Chart.Ownership
import EarleyChart.Proofs.Chart.Population
import EarleyChart.Proofs.Chart.Queue
import EarleyChart.Proofs.Chart.Room
import EarleyChart.Proofs.Chart.Validity
import EarleyChart.Proofs.Forest.Accepted
import EarleyChart.Proofs.Forest.Alternatives
import EarleyChart.Proofs.Forest.Bounded
import EarleyChart.Proofs.Forest.Cheapest
import EarleyChart.Proofs.Forest.Conformance
import EarleyChart.Proofs.Forest.Correction
import EarleyChart.Proofs.Forest.Counting
import EarleyChart.Proofs.Forest.Derivation
import EarleyChart.Proofs.Forest.Drawing
import EarleyChart.Proofs.Forest.Enumeration
import EarleyChart.Proofs.Forest.Exact
import EarleyChart.Proofs.Forest.Exactness
import EarleyChart.Proofs.Forest.First
import EarleyChart.Proofs.Forest.Labels
import EarleyChart.Proofs.Forest.Links
import EarleyChart.Proofs.Forest.Lockstep
import EarleyChart.Proofs.Forest.Memory
import EarleyChart.Proofs.Forest.Nonempty
import EarleyChart.Proofs.Forest.Pass
import EarleyChart.Proofs.Forest.Plain
import EarleyChart.Proofs.Forest.Presence
import EarleyChart.Proofs.Forest.Roots
import EarleyChart.Proofs.Forest.Selection
import EarleyChart.Proofs.Forest.Sharing
import EarleyChart.Proofs.Forest.Strict
import EarleyChart.Proofs.Forest.Tally
import EarleyChart.Proofs.Forest.Truncation
import EarleyChart.Proofs.Grammar.Acceptance
import EarleyChart.Proofs.Grammar.Cycles
import EarleyChart.Proofs.Grammar.Derivation
import EarleyChart.Proofs.Grammar.Generating
import EarleyChart.Proofs.Grammar.Naming
import EarleyChart.Proofs.Grammar.NormalForm
import EarleyChart.Proofs.Grammar.Numbering
import EarleyChart.Proofs.Grammar.Reachable
import EarleyChart.Proofs.Grammar.Renumbering
import EarleyChart.Proofs.Grammar.Rounds
import EarleyChart.Proofs.Grammar.ShortestPath
import EarleyChart.Proofs.Grammar.UnitStep
import EarleyChart.Proofs.Grammar.Viable
import EarleyChart.Proofs.Grammar.Warnings
import EarleyChart.Proofs.Lexer.Alternatives
import EarleyChart.Proofs.Lexer.ClassBytes
import EarleyChart.Proofs.Lexer.ClassSyntax
import EarleyChart.Proofs.Lexer.Classes
import EarleyChart.Proofs.Lexer.Cuts
import EarleyChart.Proofs.Lexer.Dispatch
import EarleyChart.Proofs.Lexer.Leading
import EarleyChart.Proofs.Lexer.Members
import EarleyChart.Proofs.Lexer.Preference
import EarleyChart.Proofs.Lexer.Regex
import EarleyChart.Proofs.Lexer.Tiling
import EarleyChart.Proofs.Lexer.Tracking
import EarleyChart.Proofs.Parser.Accounts
import EarleyChart.Proofs.Parser.Answered
import EarleyChart.Proofs.Parser.Append
import EarleyChart.Proofs.Parser.AppendOnly
import EarleyChart.Proofs.Parser.Atomic
import EarleyChart.Proofs.Parser.Calls
import EarleyChart.Proofs.Parser.Ceiling
import EarleyChart.Proofs.Parser.Checked
import EarleyChart.Proofs.Parser.Closed
import EarleyChart.Proofs.Parser.Closing
import EarleyChart.Proofs.Parser.Completeness
import EarleyChart.Proofs.Parser.Conservative
import EarleyChart.Proofs.Parser.Corrected
import EarleyChart.Proofs.Parser.Course
import EarleyChart.Proofs.Parser.Curbing
import EarleyChart.Proofs.Parser.Deferred
import EarleyChart.Proofs.Parser.EmptyEnds
import EarleyChart.Proofs.Parser.Filling
import EarleyChart.Proofs.Parser.Gathering
import EarleyChart.Proofs.Parser.Grounding
import EarleyChart.Proofs.Parser.Halting
import EarleyChart.Proofs.Parser.Health
import EarleyChart.Proofs.Parser.History
import EarleyChart.Proofs.Parser.InRange
import EarleyChart.Proofs.Parser.Integrity
import EarleyChart.Proofs.Parser.Lasting
import EarleyChart.Proofs.Parser.Limits
import EarleyChart.Proofs.Parser.Loop
import EarleyChart.Proofs.Parser.Monotone
import EarleyChart.Proofs.Parser.Narrowing
import EarleyChart.Proofs.Parser.Preservation
import EarleyChart.Proofs.Parser.Presizing
import EarleyChart.Proofs.Parser.Pricing
import EarleyChart.Proofs.Parser.Process
import EarleyChart.Proofs.Parser.Questions
import EarleyChart.Proofs.Parser.Quotation
import EarleyChart.Proofs.Parser.Reading
import EarleyChart.Proofs.Parser.Readings
import EarleyChart.Proofs.Parser.Recognition
import EarleyChart.Proofs.Parser.Refusal
import EarleyChart.Proofs.Parser.Rejected
import EarleyChart.Proofs.Parser.Renewal
import EarleyChart.Proofs.Parser.Repair
import EarleyChart.Proofs.Parser.Requests
import EarleyChart.Proofs.Parser.Room
import EarleyChart.Proofs.Parser.Saturation
import EarleyChart.Proofs.Parser.Settings
import EarleyChart.Proofs.Parser.Soundness
import EarleyChart.Proofs.Parser.Statistics
import EarleyChart.Proofs.Parser.Steps
import EarleyChart.Proofs.Parser.Tables
import EarleyChart.Proofs.Parser.Tallied
import EarleyChart.Proofs.Parser.Termination
import EarleyChart.Proofs.Parser.Turns
import EarleyChart.Proofs.Parser.Uniform
import EarleyChart.Proofs.Parser.Viability
import EarleyChart.Proofs.Report.Excerpt
import EarleyChart.Proofs.Text.Diagram
import EarleyChart.Proofs.Token.Tracking
import EarleyChart.Report.RichError
import EarleyChart.Text.Age
import EarleyChart.Text.Blank
import EarleyChart.Text.Break
import EarleyChart.Text.ByteSequence
import EarleyChart.Text.CaseFold
import EarleyChart.Text.Category
import EarleyChart.Text.CharTable
import EarleyChart.Text.CodeRanges
import EarleyChart.Text.Hex
import EarleyChart.Text.Offset
import EarleyChart.Text.Printable
import EarleyChart.Text.Property
import EarleyChart.Text.Quoted
import EarleyChart.Text.Script
import EarleyChart.Text.Word
import EarleyChart.Token.Basic
import EarleyChart.Token.Location
import EarleyChart.Token.Source
import EarleyChart.Token.Stream
