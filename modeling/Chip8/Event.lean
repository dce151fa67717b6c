import Chip8.Fault
import Chip8.Instruction.Text

/-!
What the machine reports while it works, and how each report is written. Addresses have at
least three digits here, and registers and keys are a bare digit.
-/

namespace Chip8

inductive Severity where
  | warn
  | debug
  | trace
  deriving DecidableEq, Repr

def Severity.label : Severity → String
  | .warn => "WARN"
  | .debug => "DEBUG"
  | .trace => "TRACE"

def Severity.rank : Severity → Nat
  | .warn => 0
  | .debug => 1
  | .trace => 2

inductive Event where
  | programLoaded (size : Nat) (entry : UInt16)
  | fetched (address : UInt16) (instruction : Instruction)
  | spriteDrawn (x y : UInt8) (sprite : List UInt8)
  /-- An opcode without a meaning was passed over. -/
  | unknownSkipped (opcode : Opcode) (address : UInt16)
  | waitStarted (register : UInt8)
  /-- An instruction was not carried out because a key is awaited. -/
  | dropped (instruction : Instruction) (register : UInt8)
  | waitExpired (register : UInt8) (waited : UInt32)
  | waitCancelled (register : UInt8)
  /-- A key went down and its number is now in the register that waited. -/
  | keyArrived (key register : UInt8)
  | halting (address : UInt16) (fault : Fault)
  deriving DecidableEq, Repr

namespace Event

def severity : Event → Severity
  | .programLoaded .. => .debug
  | .fetched .. => .trace
  | .spriteDrawn .. => .trace
  | .unknownSkipped .. => .warn
  | .waitStarted .. => .debug
  | .dropped .. => .debug
  | .waitExpired .. => .warn
  | .waitCancelled .. => .debug
  | .keyArrived .. => .debug
  | .halting .. => .warn

def addressText (address : UInt16) : String := Hex.marked 3 address.toNat

def digitText (value : UInt8) : String := Hex.numeral 1 value.toNat

def message : Event → String
  | .programLoaded size entry =>
      "loaded " ++ size.repr ++ " byte program at " ++ addressText entry
  | .fetched address instruction => addressText address ++ ": " ++ instruction.text
  | .spriteDrawn x y sprite =>
      "painting sprite at (" ++ x.toNat.repr ++ ", " ++ y.toNat.repr ++ "): " ++ Hex.bytes sprite
  | .unknownSkipped opcode address =>
      "skipping unknown opcode " ++ Hex.numeral 4 opcode.toNat ++ " at " ++ addressText address
  | .waitStarted register => "waiting for a key for V" ++ digitText register
  | .dropped instruction register =>
      "dropped " ++ instruction.text ++ " while waiting for a key for V" ++ digitText register
  | .waitExpired register waited =>
      "gave up waiting for a key for V" ++ digitText register ++ " after " ++
        waited.toNat.repr ++ " steps"
  | .waitCancelled register => "cancelled wait for V" ++ digitText register
  | .keyArrived key register =>
      "key " ++ digitText key ++ " resumes wait for V" ++ digitText register
  | .halting address fault => "halting at " ++ addressText address ++ ": " ++ fault.message

def line (event : Event) : String := event.severity.label ++ " " ++ event.message

/-- The lines of the reports that are at least as severe as asked for. -/
def linesUpTo (least : Severity) (events : List Event) : List String :=
  (events.filter fun event => event.severity.rank ≤ least.rank).map line

end Event

end Chip8
