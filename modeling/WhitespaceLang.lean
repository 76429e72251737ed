import WhitespaceLang.Attempt
import WhitespaceLang.Bytes.Encoding
import WhitespaceLang.Bytes.Utf16
import WhitespaceLang.Bytes.Utf8
import WhitespaceLang.CommandLine
import WhitespaceLang.CommandLine.Arguments
import WhitespaceLang.CommandLine.FileTree
import WhitespaceLang.Data
import WhitespaceLang.Decimal
import WhitespaceLang.Device
import WhitespaceLang.Device.Input
import WhitespaceLang.Device.Output
import WhitespaceLang.Device.Schedule
import WhitespaceLang.ErrorKind
import WhitespaceLang.Fault
import WhitespaceLang.Flow
import WhitespaceLang.Flow.Load
import WhitespaceLang.Heap
import WhitespaceLang.Instr
import WhitespaceLang.Instr.Listing
import WhitespaceLang.Instr.Parser
import WhitespaceLang.Instr.Spelling
import WhitespaceLang.Label
import WhitespaceLang.Machine
import WhitespaceLang.Machine.Run
import WhitespaceLang.Main
import WhitespaceLang.Opcode
import WhitespaceLang.SelfTest
import WhitespaceLang.Stack
import WhitespaceLang.Symbol
import WhitespaceLang.Text.Basic
import WhitespaceLang.Text.Blank
import WhitespaceLang.Text.Digit
import WhitespaceLang.Text.LineEnd
import WhitespaceLang.Text.Printable
import WhitespaceLang.Text.Quoted
import WhitespaceLang.Token
import WhitespaceLang.Token.Lexer
import WhitespaceLang.Proofs.Atomic
import WhitespaceLang.Proofs.Bytes.RoundTrip
import WhitespaceLang.Proofs.CommandLine.CommentBytes
import WhitespaceLang.Proofs.CommandLine.Drivers
import WhitespaceLang.Proofs.CommandLine.Sources
import WhitespaceLang.Proofs.Device.Failing
import WhitespaceLang.Proofs.Device.Plain
import WhitespaceLang.Proofs.Device.Reading
import WhitespaceLang.Proofs.Device.WordByWord
import WhitespaceLang.Proofs.Device.WrittenNumbers
import WhitespaceLang.Proofs.Flow.EarliestProblem
import WhitespaceLang.Proofs.Flow.Operations
import WhitespaceLang.Proofs.Listing.Faithful
import WhitespaceLang.Proofs.Listing.Line
import WhitespaceLang.Proofs.Listing.Numeral
import WhitespaceLang.Proofs.Machine.Accounting
import WhitespaceLang.Proofs.Machine.Agreement
import WhitespaceLang.Proofs.Machine.Blocks
import WhitespaceLang.Proofs.Machine.Bracketing
import WhitespaceLang.Proofs.Machine.DeviceChange
import WhitespaceLang.Proofs.Machine.DeviceUse
import WhitespaceLang.Proofs.Machine.DigitLimit
import WhitespaceLang.Proofs.Machine.EarlierOutput
import WhitespaceLang.Proofs.Machine.EncodedOutput
import WhitespaceLang.Proofs.Machine.Evaluation
import WhitespaceLang.Proofs.Machine.Expression
import WhitespaceLang.Proofs.Machine.FailedInstruction
import WhitespaceLang.Proofs.Machine.InsertedMark
import WhitespaceLang.Proofs.Machine.Interpretation
import WhitespaceLang.Proofs.Machine.Linking
import WhitespaceLang.Proofs.Machine.Loading
import WhitespaceLang.Proofs.Machine.Marks
import WhitespaceLang.Proofs.Machine.Operands
import WhitespaceLang.Proofs.Machine.Outcome
import WhitespaceLang.Proofs.Machine.Reachable
import WhitespaceLang.Proofs.Machine.Reference
import WhitespaceLang.Proofs.Machine.Relabelling
import WhitespaceLang.Proofs.Machine.Relocation
import WhitespaceLang.Proofs.Machine.Renaming
import WhitespaceLang.Proofs.Machine.Rerun
import WhitespaceLang.Proofs.Machine.Simulation
import WhitespaceLang.Proofs.Machine.StackDepth
import WhitespaceLang.Proofs.Machine.StackEffect
import WhitespaceLang.Proofs.Machine.StackFrame
import WhitespaceLang.Proofs.Machine.Stepping
import WhitespaceLang.Proofs.Machine.Stopping
import WhitespaceLang.Proofs.Machine.UnreachedInput
import WhitespaceLang.Proofs.Source.Arity
import WhitespaceLang.Proofs.Source.Calls
import WhitespaceLang.Proofs.Source.Code
import WhitespaceLang.Proofs.Source.Decoding
import WhitespaceLang.Proofs.Source.Grammar
import WhitespaceLang.Proofs.Source.Instruction
import WhitespaceLang.Proofs.Source.LineEnds
import WhitespaceLang.Proofs.Source.Literal
import WhitespaceLang.Proofs.Source.Readers
import WhitespaceLang.Proofs.Source.Spelled
import WhitespaceLang.Proofs.Source.SymbolBytes
import WhitespaceLang.Proofs.Machine.ForwardTransfers
import WhitespaceLang.Proofs.Machine.CopyLoop
import WhitespaceLang.Proofs.Machine.DeepStack
import WhitespaceLang.Proofs.Machine.HeapHistory
