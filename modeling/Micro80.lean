import Micro80.Alu
import Micro80.Device
import Micro80.Device.Bench
import Micro80.Device.PortMap
import Micro80.Flags
import Micro80.Instruction.Decode
import Micro80.Instruction.Disassembly
import Micro80.Instruction.Encoding
import Micro80.Instruction.Opcode
import Micro80.Instruction.Operand
import Micro80.Instruction.Operation
import Micro80.Instruction.Table
import Micro80.Log.Clock
import Micro80.Log.Console
import Micro80.Log.Directory
import Micro80.Log.Message
import Micro80.Log.Session
import Micro80.Machine
import Micro80.Machine.Core
import Micro80.Machine.Effect
import Micro80.Machine.Event
import Micro80.Machine.Panel
import Micro80.Machine.Ports
import Micro80.Machine.Run
import Micro80.Memory
import Micro80.Memory.Cells
import Micro80.Memory.Image
import Micro80.Memory.Inspect
import Micro80.Proofs.Alu.Agreement
import Micro80.Proofs.Alu.Binary
import Micro80.Proofs.Alu.Chain
import Micro80.Proofs.Alu.Decimal
import Micro80.Proofs.Alu.Shifting
import Micro80.Proofs.Alu.Sparing
import Micro80.Proofs.Alu.Words
import Micro80.Proofs.Device.Clearing
import Micro80.Proofs.Device.Consistency
import Micro80.Proofs.Device.Installing
import Micro80.Proofs.Device.Wiring
import Micro80.Proofs.Instruction.Acceptance
import Micro80.Proofs.Instruction.Apart
import Micro80.Proofs.Instruction.Assembly
import Micro80.Proofs.Instruction.Change
import Micro80.Proofs.Instruction.Compatibility
import Micro80.Proofs.Instruction.Decoding
import Micro80.Proofs.Instruction.Faithfulness
import Micro80.Proofs.Instruction.Filling
import Micro80.Proofs.Instruction.FirstMatch
import Micro80.Proofs.Instruction.Form
import Micro80.Proofs.Instruction.Hidden
import Micro80.Proofs.Instruction.Indexing
import Micro80.Proofs.Instruction.Locality
import Micro80.Proofs.Instruction.OperandText
import Micro80.Proofs.Instruction.PortForm
import Micro80.Proofs.Instruction.Preservation
import Micro80.Proofs.Instruction.Relocation
import Micro80.Proofs.Instruction.Reshaping
import Micro80.Proofs.Instruction.Role
import Micro80.Proofs.Instruction.Similarity
import Micro80.Proofs.Instruction.Soundness
import Micro80.Proofs.Instruction.Sparing
import Micro80.Proofs.Instruction.Substitution
import Micro80.Proofs.Instruction.TextLength
import Micro80.Proofs.Log.Lines
import Micro80.Proofs.Log.Routing
import Micro80.Proofs.Machine.Advance
import Micro80.Proofs.Machine.Agreement
import Micro80.Proofs.Machine.BlockTransfer
import Micro80.Proofs.Machine.Boundary
import Micro80.Proofs.Machine.Canonical
import Micro80.Proofs.Machine.Clearing
import Micro80.Proofs.Machine.Composition
import Micro80.Proofs.Machine.Dialogue
import Micro80.Proofs.Machine.Failure
import Micro80.Proofs.Machine.Footprint
import Micro80.Proofs.Machine.Halting
import Micro80.Proofs.Machine.Hidden
import Micro80.Proofs.Machine.Indexing
import Micro80.Proofs.Machine.Journal
import Micro80.Proofs.Machine.Limits
import Micro80.Proofs.Machine.Listening
import Micro80.Proofs.Machine.Lockstep
import Micro80.Proofs.Machine.Panel
import Micro80.Proofs.Machine.PortAccess
import Micro80.Proofs.Machine.PowerOn
import Micro80.Proofs.Machine.Reports
import Micro80.Proofs.Machine.Retry
import Micro80.Proofs.Machine.Soundness
import Micro80.Proofs.Machine.Sparing
import Micro80.Proofs.Machine.Stack
import Micro80.Proofs.Machine.Step
import Micro80.Proofs.Machine.TraceLines
import Micro80.Proofs.Machine.Turn
import Micro80.Proofs.Machine.Undecodable
import Micro80.Proofs.Machine.Wiring
import Micro80.Proofs.Memory.BlockCopy
import Micro80.Proofs.Memory.Breakpoints
import Micro80.Proofs.Memory.Dump
import Micro80.Proofs.Memory.History
import Micro80.Proofs.Memory.Loading
import Micro80.Proofs.Memory.Marking
import Micro80.Proofs.Registers.Words
import Micro80.Proofs.Text.Dump
import Micro80.Proofs.Text.Fields
import Micro80.Proofs.Text.Number
import Micro80.Registers
import Micro80.Stop
import Micro80.Text
import Micro80.Text.Dump
import Micro80.Variant
import Micro80.Word
