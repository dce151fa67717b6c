import Chip8.CallStack
import Chip8.Event
import Chip8.Keypad
import Chip8.Random
import Chip8.Registers
import Chip8.Screen
import Chip8.Timer

/-!
The whole machine as one value, and its state after power-on.
-/

namespace Chip8

structure Config where
  /-- Determines the random bytes. Without a seed the host has to supply them. -/
  seed : Option UInt64 := none
  /-- How many steps a wait for a key may take. Without a limit it lasts until a key comes. -/
  keyWaitTimeout : Option UInt32 := none
  deriving DecidableEq, Repr

inductive Mode where
  | running
  /-- The next key that goes down ends the wait, and its number goes into the register. -/
  | awaitingKey (register : UInt8) (waited : UInt32)
  /-- A fault stopped the machine, and only a reset revives it. -/
  | halted
  deriving DecidableEq, Repr

structure Machine where
  registers : Registers
  pc : Address
  index : Address
  memory : Memory
  stack : CallStack
  screen : Screen
  keypad : Keypad
  delay : Timer
  sound : Timer
  mode : Mode
  random : WordSource
  config : Config
  /-- How many unknown opcodes were passed over since the last reset. -/
  unknownCount : UInt64

namespace Machine

def powerOn (config : Config) (random : WordSource) : Machine where
  registers := .zero
  pc := 0
  index := 0
  memory := .initial
  stack := .empty
  screen := .blank
  keypad := .released
  delay := .stopped
  sound := .stopped
  mode := .running
  random
  config
  unknownCount := 0

def isHalted (machine : Machine) : Bool := machine.mode == .halted

def isAwaitingKey (machine : Machine) : Bool :=
  match machine.mode with
  | .awaitingKey .. => true
  | _ => false

end Machine

end Chip8
