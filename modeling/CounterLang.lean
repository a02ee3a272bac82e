import CounterLang.Numeral
import CounterLang.Text.Pieces
import CounterLang.Text.Printable
import CounterLang.Text.Quoted
import CounterLang.Text.Outline
import CounterLang.Operand
import CounterLang.Condition
import CounterLang.Operation
import CounterLang.Node
import CounterLang.Node.Frame
import CounterLang.Node.Preorder
import CounterLang.Token
import CounterLang.Grammar
import CounterLang.Statement
import CounterLang.Source
import CounterLang.Display
import CounterLang.Log
import CounterLang.Compilation.Error
import CounterLang.Compilation.Scan
import CounterLang.Compilation.Block
import CounterLang.Compilation
import CounterLang.Compilation.Log
import CounterLang.RuntimeError
import CounterLang.Store
import CounterLang.Evaluation
import CounterLang.Machine
import CounterLang.Run
import CounterLang.Run.Unrecorded
import CounterLang.Run.Interpreter
import CounterLang.Run.Log
import CounterLang.Session
import CounterLang.Report
import CounterLang.Command
import CounterLang.Response
import CounterLang.Main
import CounterLang.Proofs.Node.Relabel
import CounterLang.Proofs.Node.Rename
import CounterLang.Proofs.Node.Triggers
import CounterLang.Proofs.Node.Address
import CounterLang.Proofs.Statement.Wording
import CounterLang.Proofs.Statement.Spelling
import CounterLang.Proofs.Source.Nesting
import CounterLang.Proofs.Source.Layout
import CounterLang.Proofs.Compilation.Spans
import CounterLang.Proofs.Compilation.Faults
import CounterLang.Proofs.Compilation.Rows
import CounterLang.Proofs.Compilation.Repair
import CounterLang.Proofs.Compilation.Writing
import CounterLang.Proofs.Compilation.Concatenation
import CounterLang.Proofs.Flat.Machine
import CounterLang.Proofs.Flat.Simulation
import CounterLang.Proofs.Run.Steps
import CounterLang.Proofs.Run.Transport
import CounterLang.Proofs.Run.Sequence
import CounterLang.Proofs.Run.Reads
import CounterLang.Proofs.Run.Counting
import CounterLang.Proofs.Run.Cleared
import CounterLang.Proofs.Run.Halts
import CounterLang.Proofs.Run.Origin
import CounterLang.Proofs.Run.Lockstep
import CounterLang.Proofs.Run.Vocabulary
import CounterLang.Proofs.Run.Rounds
import CounterLang.Proofs.Run.Rename
import CounterLang.Proofs.Compilation.Rename
import CounterLang.Proofs.Text.Quoting
import CounterLang.Proofs.Response.Picture
import CounterLang.Proofs.Response.Trace
import CounterLang.Proofs.Session.Triggers
import CounterLang.Proofs.Run.Language
import CounterLang.Proofs.Run.Snapshots
import CounterLang.Proofs.Run.Guards
import CounterLang.Proofs.Statement.Acceptance
import CounterLang.Proofs.Compilation.Spacing
import CounterLang.Proofs.Compilation.Blanks
import CounterLang.Proofs.Source.SpaceRuns
import CounterLang.Proofs.Run.Body
import CounterLang.Proofs.Run.CountingLoop
import CounterLang.Proofs.Run.Evaluates
import CounterLang.Proofs.Source.Indented
import CounterLang.Proofs.Run.Multiplication
import CounterLang.Proofs.Run.StraightLine
import CounterLang.Proofs.Run.Notices
import CounterLang.Proofs.Compilation.OpenSpans
import CounterLang.Proofs.Compilation.Descent
import CounterLang.Proofs.Compilation.Finds
import CounterLang.Proofs.Compilation.Records
import CounterLang.Proofs.Text.Encoding
import CounterLang.Proofs.Store.Entries
import CounterLang.Proofs.Store.Settings
import CounterLang.Proofs.Interpreter.Watched
import CounterLang.Proofs.Interpreter.Simulation
import CounterLang.Proofs.Interpreter.Recorder
import CounterLang.Proofs.Run.Cut
