import Chip8.Keypad.Layout
import Chip8.Machine.Outcome

/-!
What the host does to the machine: loading, resetting, keys and the clock. None of it runs an
instruction, and all of it works in every mode.
-/

namespace Chip8.Machine

/-- Back to the state after power-on. The random words that were used stay used. -/
def reset (machine : Machine) : Machine :=
  { machine with
    registers := .zero
    pc := 0
    index := 0
    memory := .initial
    stack := .empty
    screen := .blank
    keypad := .released
    delay := .stopped
    sound := .stopped
    mode := .running
    unknownCount := 0 }

theorem reset_eq_powerOn (machine : Machine) :
    machine.reset = powerOn machine.config machine.random := rfl

def load (machine : Machine) (program : List UInt8) : Outcome Unit :=
  match machine.memory.load program with
  | .ok (entry, memory) =>
      (Outcome.done { machine with memory, pc := entry } ()).report
        (.programLoaded program.length entry)
  | .error fault => .failed machine fault

def keyDown (machine : Machine) (key : UInt8) : Outcome Unit :=
  match machine.keypad.setDown key true with
  | .error fault => .failed machine fault
  | .ok keypad =>
      match machine.mode with
      | .awaitingKey register _ =>
          (Outcome.done { machine with
            keypad
            registers := machine.registers.set register key
            mode := .running } ()).report (.keyArrived key register)
      | _ => .done { machine with keypad } ()

def keyUp (machine : Machine) (key : UInt8) : Outcome Unit :=
  match machine.keypad.setDown key false with
  | .error fault => .failed machine fault
  | .ok keypad => .done { machine with keypad } ()

/-- Hands the key that a symbol stands for to an action, and answers that key. A symbol that
stands for none, or a key the action refuses, is answered by none. -/
def onSymbol (machine : Machine) (symbol : Char) (action : UInt8 → Outcome Unit) :
    Outcome (Option UInt8) :=
  match Keypad.keyOfSymbol? symbol with
  | none => .done machine none
  | some key =>
      let acted := action key
      { acted with
        result := match acted.result with
          | .ok () => .ok (some key)
          | .error _ => .ok none }

def press (machine : Machine) (symbol : Char) : Outcome (Option UInt8) :=
  machine.onSymbol symbol machine.keyDown

def release (machine : Machine) (symbol : Char) : Outcome (Option UInt8) :=
  machine.onSymbol symbol machine.keyUp

/-- Ends a wait for a key without one: the register keeps its value. Answers whether there was
a wait. -/
def cancelWait (machine : Machine) : Outcome Bool :=
  match machine.mode with
  | .awaitingKey register _ =>
      (Outcome.done { machine with mode := .running } true).report (.waitCancelled register)
  | _ => .done machine false

def tick (machine : Machine) : Outcome Bool :=
  .done { machine with delay := machine.delay.tick, sound := machine.sound.tick }
    machine.sound.tick.isActive

def drawSprite (machine : Machine) (x y : UInt8) (sprite : List UInt8) : Outcome Bool :=
  let drawn := machine.screen.draw x y sprite
  (Outcome.done { machine with screen := drawn.2 } drawn.1).report (.spriteDrawn x y sprite)

end Chip8.Machine
