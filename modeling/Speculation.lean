import Speculation.Artifact
import Speculation.Bank
import Speculation.Bank.Guards
import Speculation.Breach
import Speculation.Bytes
import Speculation.Compile
import Speculation.CompileError
import Speculation.Double.Arith
import Speculation.Double.Basic
import Speculation.Double.Decimal
import Speculation.Double.Parse
import Speculation.Execution.Leave
import Speculation.Execution.Registers
import Speculation.Execution.Service
import Speculation.Execution.Step
import Speculation.Exit
import Speculation.Facts
import Speculation.Graph.Basic
import Speculation.Graph.Draft
import Speculation.Graph.Forward
import Speculation.Graph.Text
import Speculation.JumpTable
import Speculation.Ledger
import Speculation.Link
import Speculation.Location
import Speculation.Lowering.Arith
import Speculation.Lowering.Block
import Speculation.Lowering.Compare
import Speculation.Lowering.Control
import Speculation.Lowering.Convert
import Speculation.Lowering.Emit
import Speculation.Lowering.Fill
import Speculation.Lowering.Guard
import Speculation.Lowering.Heap
import Speculation.Lowering.Program
import Speculation.Lowering.Registers
import Speculation.Lowering.State
import Speculation.Machine.Assembler
import Speculation.Machine.Convention
import Speculation.Machine.Encoding
import Speculation.Machine.Instruction
import Speculation.Machine.Listing
import Speculation.Memory
import Speculation.Options
import Speculation.Queue
import Speculation.Recovery
import Speculation.Semantics.Convert
import Speculation.Semantics.Number
import Speculation.Text.Blank
import Speculation.Text.CharSet
import Speculation.Text.CharSet.Combining
import Speculation.Text.CharSet.Unprintable
import Speculation.Text.Hex
import Speculation.Text.Lines
import Speculation.Text.Quoted
import Speculation.Text.Utf16
import Speculation.TypeSet
import Speculation.Value
import Speculation.World.Code
import Speculation.World.Context
import Speculation.World.Elements
import Speculation.World.Object
import Speculation.World.State
import Speculation.Proofs.Bank
import Speculation.Proofs.Lowering.Agreement
import Speculation.Proofs.Lowering.Coherence
import Speculation.Proofs.Lowering.Calm
import Speculation.Proofs.Compile.Ledger
import Speculation.Proofs.Execution.Steps
import Speculation.Proofs.Graph.Uses
import Speculation.Proofs.Integer.Emitting
import Speculation.Proofs.Integer.Registers
import Speculation.Proofs.Lowering.Growth
import Speculation.Proofs.Compile.Tables
import Speculation.Proofs.Compile.Patches
import Speculation.Proofs.Compile.Places
import Speculation.Proofs.Compile.Sites
import Speculation.Proofs.World.Still
import Speculation.Proofs.Integer.Arith
import Speculation.Proofs.Integer.Layout
import Speculation.Proofs.Integer.Locals
import Speculation.Proofs.Integer.Opening
import Speculation.Proofs.World.Watchpoints
import Speculation.Proofs.Compile.WellFormed
import Speculation.Proofs.Machine.Decoding
import Speculation.Proofs.Machine.Canonical
import Speculation.Proofs.Machine.Listing
import Speculation.Proofs.Exits
import Speculation.Proofs.Integer.Code
import Speculation.Proofs.Integer.Leaving
import Speculation.Proofs.Independence.Sequences
import Speculation.Proofs.Execution.Linked
import Speculation.Proofs.SlowPath.Arguments
import Speculation.Proofs.SlowPath.Code
import Speculation.Proofs.SlowPath.Compiled
import Speculation.Proofs.Queue
import Speculation.Proofs.Execution.Handlers
import Speculation.Proofs.Integer.Calls
import Speculation.Proofs.Integer.Correctness
import Speculation.Proofs.World.Pages
import Speculation.Proofs.Running.Course
import Speculation.Proofs.Execution.Flags
import Speculation.Proofs.Running.Stands
import Speculation.Proofs.Running.Operands
import Speculation.Proofs.Running.Division
import Speculation.Proofs.Running.Results
import Speculation.Proofs.Running.Arith
import Speculation.Proofs.Replay
import Speculation.Proofs.Execution.Straight
import Speculation.Proofs.Link.Relocation
import Speculation.Proofs.Running.Compiled
import Speculation.Proofs.Switch.Compiled
import Speculation.Proofs.Heap.Structures
import Speculation.Proofs.Numbers
import Speculation.Proofs.Heap.Conversion
import Speculation.Proofs.Heap.Histories
import Speculation.Proofs.Bank.Guards
import Speculation.Proofs.Facts.Truth
import Speculation.Proofs.Lowering.Frame
import Speculation.Proofs.Heap.Prototypes
import Speculation.Proofs.Running.Cells
import Speculation.Proofs.Running.Guards
import Speculation.Proofs.Running.Instances
import Speculation.Proofs.Instances
import Speculation.Proofs.Text.Units
import Speculation.Proofs.Heap.Strings
import Speculation.Proofs.Switch.Texts
import Speculation.Proofs.Running.Doubles
import Speculation.Proofs.Running.Successors
import Speculation.Proofs.Accesses
import Speculation.Proofs.Graph.Children
import Speculation.Proofs.World.Arity
import Speculation.Proofs.Memory.Flat
import Speculation.Proofs.Heap.Comparisons
import Speculation.Proofs.Running.Conversion
import Speculation.Proofs.Fusion
