import Chip8.Instruction.Decode
import Chip8.Machine.Apply

/-!
Running the machine. A step reads the word at the program counter, moves the counter past it and
carries the instruction out. A fault halts the machine, and while a key is awaited steps only
count.
-/

namespace Chip8

namespace Machine

/-- Stops the machine. The report names the program counter as it stands. -/
def halt {Result : Type} (machine : Machine) (fault : Fault) : Outcome Result :=
  (Outcome.failed { machine with mode := .halted } fault).report (.halting machine.pc fault)

/-- Carries an instruction out if the machine is running. While a key is awaited the instruction
is dropped, and after a fault it is refused. -/
def perform (machine : Machine) (instruction : Instruction) : Outcome Unit :=
  match machine.mode with
  | .halted => .failed machine .halted
  | .awaitingKey register _ =>
      (Outcome.done machine ()).report (.dropped instruction register)
  | .running =>
      let applied := machine.apply instruction
      match applied.result with
      | .ok () => applied
      | .error fault =>
          let stopped := applied.machine.halt fault
          { stopped with events := applied.events ++ stopped.events }

/-- Performs the instruction of an opcode without touching the program counter beforehand. -/
def execute (machine : Machine) (opcode : Opcode) : Outcome Unit :=
  machine.perform (.decode opcode)

def fetch (machine : Machine) : Outcome Instruction :=
  match machine.memory.word machine.pc with
  | .ok opcode => .done { machine with pc := machine.pc.next } (.decode opcode)
  | .error fault => .failed machine fault

def waitOn (machine : Machine) (register : UInt8) (waited : UInt32) : Outcome Unit :=
  let passed := if waited = 0xFFFFFFFF then waited else waited + 1
  let still := Outcome.done { machine with mode := .awaitingKey register passed } ()
  match machine.config.keyWaitTimeout with
  | none => still
  | some limit =>
      if limit ≤ passed then
        (Outcome.done { machine with mode := .running } ()).report (.waitExpired register passed)
      else still

def step (machine : Machine) : Outcome Unit :=
  match machine.mode with
  | .halted => .failed machine .halted
  | .awaitingKey register waited => machine.waitOn register waited
  | .running =>
      let fetched := machine.fetch
      match fetched.result with
      | .error fault => fetched.machine.halt fault
      | .ok instruction =>
          let performed := fetched.machine.perform instruction
          { performed with events := .fetched machine.pc instruction :: performed.events }

end Machine

/-- A row of steps: where it left the machine, the fault that ended it early, the program
counter after each step, and all that was reported. -/
structure Run where
  machine : Machine
  fault : Option Fault
  counters : List Address
  events : List Event

def Machine.run (machine : Machine) : Nat → Run
  | 0 => { machine, fault := none, counters := [], events := [] }
  | steps + 1 =>
      let stepped := machine.step
      let next := stepped.machine
      match stepped.result with
      | .error fault =>
          { machine := next, fault := some fault, counters := [next.pc], events := stepped.events }
      | .ok () =>
          let rest := next.run steps
          { rest with
            counters := next.pc :: rest.counters
            events := stepped.events ++ rest.events }

end Chip8
