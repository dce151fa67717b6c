import Chip8.Machine.Basic

/-!
What a call on the machine leaves behind. A fault does not hide the machine, which is returned
with whatever was written to it before the fault arose.
-/

namespace Chip8

/-- The events are in the order in which they were reported. -/
structure Outcome (Result : Type) where
  result : Except Fault Result
  machine : Machine
  events : List Event

namespace Outcome

def done {Result : Type} (machine : Machine) (value : Result) : Outcome Result where
  result := .ok value
  machine
  events := []

def failed {Result : Type} (machine : Machine) (fault : Fault) : Outcome Result where
  result := .error fault
  machine
  events := []

def map {First Second : Type} (change : First → Second) (outcome : Outcome First) :
    Outcome Second where
  result := outcome.result.map change
  machine := outcome.machine
  events := outcome.events

def report {Result : Type} (outcome : Outcome Result) (event : Event) : Outcome Result :=
  { outcome with events := outcome.events ++ [event] }

section Fields

variable {First Second Result : Type} (machine : Machine) (value : Result) (fault : Fault)
  (change : First → Second) (outcome : Outcome First) (event : Event)

@[simp] theorem done_result : (done machine value).result = .ok value := rfl

@[simp] theorem done_machine : (done machine value).machine = machine := rfl

@[simp] theorem failed_result : (failed machine fault : Outcome Result).result = .error fault := rfl

@[simp] theorem failed_machine : (failed machine fault : Outcome Result).machine = machine := rfl

@[simp] theorem map_result : (outcome.map change).result = outcome.result.map change := rfl

@[simp] theorem map_machine : (outcome.map change).machine = outcome.machine := rfl

@[simp] theorem report_result : (outcome.report event).result = outcome.result := rfl

@[simp] theorem report_machine : (outcome.report event).machine = outcome.machine := rfl

end Fields

end Outcome

end Chip8
