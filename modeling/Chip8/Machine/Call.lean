import Chip8.Machine.Host
import Chip8.Machine.Seeded
import Chip8.Machine.Step

/-!
The calls a host can make, as data. A history of the machine is a list of them.
-/

namespace Chip8

inductive Call where
  | load (program : List UInt8)
  | step
  | execute (opcode : Opcode)
  | perform (instruction : Instruction)
  | fetch
  | keyDown (key : UInt8)
  | keyUp (key : UInt8)
  | press (symbol : Char)
  | release (symbol : Char)
  | cancelWait
  | tick
  | reset
  | draw (x y : UInt8) (sprite : List UInt8)
  | clearScreen
  | takeDirty
  deriving DecidableEq, Repr

def Call.executes : Call → Bool
  | .step => true
  | .execute _ => true
  | .perform _ => true
  | _ => false

inductive Reply where
  | nothing
  | truth (value : Bool)
  | key (key : Option UInt8)
  | instruction (instruction : Instruction)
  deriving DecidableEq, Repr

namespace Machine

def call (machine : Machine) : Call → Outcome Reply
  | .load program => (machine.load program).map fun () => .nothing
  | .step => machine.step.map fun () => .nothing
  | .execute opcode => (machine.execute opcode).map fun () => .nothing
  | .perform instruction => (machine.perform instruction).map fun () => .nothing
  | .fetch => machine.fetch.map .instruction
  | .keyDown key => (machine.keyDown key).map fun () => .nothing
  | .keyUp key => (machine.keyUp key).map fun () => .nothing
  | .press symbol => (machine.press symbol).map .key
  | .release symbol => (machine.release symbol).map .key
  | .cancelWait => machine.cancelWait.map .truth
  | .tick => machine.tick.map .truth
  | .reset => .done machine.reset .nothing
  | .draw x y sprite => (machine.drawSprite x y sprite).map .truth
  | .clearScreen => .done { machine with screen := machine.screen.clear } .nothing
  | .takeDirty =>
      .done { machine with screen := machine.screen.takeDirty.2 }
        (.truth machine.screen.takeDirty.1)

def after (machine : Machine) (calls : List Call) : Machine :=
  calls.foldl (fun current call => (current.call call).machine) machine

def replies (machine : Machine) : List Call → List (Except Fault Reply)
  | [] => []
  | call :: rest =>
      let outcome := machine.call call
      outcome.result :: outcome.machine.replies rest

def transcript (machine : Machine) (calls : List Call) : List (Call × Except Fault Reply) :=
  calls.zip (machine.replies calls)

@[simp] theorem after_nil (machine : Machine) : machine.after [] = machine := rfl

@[simp] theorem after_cons (machine : Machine) (call : Call) (rest : List Call) :
    machine.after (call :: rest) = (machine.call call).machine.after rest := rfl

theorem after_append (machine : Machine) (earlier later : List Call) :
    machine.after (earlier ++ later) = (machine.after earlier).after later :=
  List.foldl_append

@[simp] theorem transcript_nil (machine : Machine) : machine.transcript [] = [] := rfl

@[simp] theorem transcript_cons (machine : Machine) (call : Call) (rest : List Call) :
    machine.transcript (call :: rest) =
      (call, (machine.call call).result) :: (machine.call call).machine.transcript rest := rfl

theorem transcript_append (machine : Machine) (earlier later : List Call) :
    machine.transcript (earlier ++ later) =
      machine.transcript earlier ++ (machine.after earlier).transcript later := by
  induction earlier generalizing machine with
  | nil => rfl
  | cons call rest induction =>
      rw [List.cons_append, transcript_cons, transcript_cons, after_cons, induction]
      rfl

theorem transcript_concat (machine : Machine) (calls : List Call) (call : Call) :
    machine.transcript (calls ++ [call]) =
      machine.transcript calls ++ [(call, ((machine.after calls).call call).result)] :=
  transcript_append machine calls [call]

theorem after_concat (machine : Machine) (calls : List Call) (call : Call) :
    machine.after (calls ++ [call]) = ((machine.after calls).call call).machine :=
  after_append machine calls [call]

end Machine

end Chip8
