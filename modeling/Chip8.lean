import Chip8.Hex
import Chip8.Fault
import Chip8.Opcode
import Chip8.Instruction.Basic
import Chip8.Instruction.Decode
import Chip8.Instruction.Text
import Chip8.Memory
import Chip8.CallStack
import Chip8.Registers
import Chip8.Registers.Arithmetic
import Chip8.Timer
import Chip8.Screen
import Chip8.Keypad
import Chip8.Keypad.Layout
import Chip8.Random
import Chip8.Event
import Chip8.Machine.Basic
import Chip8.Random.ChaCha
import Chip8.Machine.Seeded
import Chip8.Machine.Outcome
import Chip8.Machine.Apply
import Chip8.Machine.Step
import Chip8.Machine.Host
import Chip8.Machine.Call
import Chip8.Proofs.Machine.Execution
import Chip8.Proofs.Machine.Atomicity
import Chip8.Proofs.Machine.Frames
import Chip8.Proofs.Machine.KeyWait
import Chip8.Proofs.Machine.Modes
import Chip8.Proofs.Machine.Subroutines
import Chip8.Proofs.Memory.Program
import Chip8.Proofs.Machine.Bounds
import Chip8.Proofs.Machine.StraightLine
import Chip8.Proofs.Screen.Drawing
import Chip8.Proofs.Machine.Footprints
import Chip8.Proofs.Machine.Targets
import Chip8.Proofs.Machine.HostFootprints
import Chip8.Proofs.Machine.Journal
import Chip8.Proofs.Machine.Commuting
import Chip8.Proofs.Screen.Redraw
import Chip8.Proofs.Machine.RandomWords
import Chip8.Proofs.Memory.History
import Chip8.Proofs.Opcode.Fields
import Chip8.Proofs.Instruction.Encoding
import Chip8.Proofs.Machine.Glyphs
import Chip8.Proofs.Safety.Checked
import Chip8.Proofs.Safety.Storage
import Chip8.Proofs.Safety.Decoding
import Chip8.Proofs.Opcode.Digits
import Chip8.Proofs.Safety.Drawing
import Chip8.Proofs.Safety.Instructions
import Chip8.Proofs.Safety.Calls
import Chip8.Proofs.Keypad.Events
import Chip8.Proofs.Machine.Countdowns
import Chip8.Proofs.Machine.WaitLimits
import Chip8.Proofs.Machine.UnknownOpcodes
import Chip8.Proofs.Instruction.Operands
import Chip8.Proofs.Screen.Torus
import Chip8.Proofs.Machine.Draws
import Chip8.Proofs.Machine.Flags
import Chip8.Proofs.Machine.Failures
import Chip8.Proofs.Machine.RegisterBlocks
import Chip8.Proofs.Machine.Ranges
import Chip8.Proofs.Screen.LitCount
import Chip8.Proofs.Machine.ControlFlow
import Chip8.Proofs.Screen.Shifts
import Chip8.Proofs.Machine.Decimals
import Chip8.Proofs.CallStack.Refinement
import Chip8.Proofs.Machine.Warnings
