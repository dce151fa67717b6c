import Chip8.Proofs.Machine.Faults

/-!
The stack of return addresses as a list with room for sixteen. The slots keep what was popped, and
the list is what the slots below the depth say. Every call answers from that list and keeps it, so
that nothing above the depth is ever seen.
-/

namespace Chip8

inductive StackCall where
  | push (address : Address)
  | pop
  deriving DecidableEq, Repr

/-- What a call answers, a pop with the address, and the size that can be seen after it. -/
structure StackReport where
  answer : Except Fault (Option Address)
  length : Nat
  isEmpty : Bool

namespace BoundedList

/-- A call on the addresses themselves, the latest first. A call that fails leaves them alone. -/
def call (addresses : List Address) :
    StackCall → Except Fault (Option Address) × List Address
  | .push address =>
      if addresses.length < 16 then (.ok none, address :: addresses)
      else (.error (.stackOverflow 16), addresses)
  | .pop =>
      match addresses with
      | [] => (.error .stackUnderflow, [])
      | latest :: rest => (.ok (some latest), rest)

def run (addresses : List Address) : List StackCall → List StackReport × List Address
  | [] => ([], addresses)
  | next :: rest =>
      let called := call addresses next
      let others := run called.2 rest
      (⟨called.1, called.2.length, called.2.isEmpty⟩ :: others.1, others.2)

section Room

variable {addresses : List Address}

theorem length_call_le (within : addresses.length ≤ 16) (next : StackCall) :
    (call addresses next).2.length ≤ 16 := by
  cases next with
  | push address =>
      rw [call]
      split
      next room => exact room
      next => exact within
  | pop =>
      cases addresses with
      | nil => exact within
      | cons latest rest => exact Nat.le_of_succ_le within

theorem length_run_le (within : addresses.length ≤ 16) (calls : List StackCall) :
    (run addresses calls).2.length ≤ 16 := by
  induction calls generalizing addresses with
  | nil => exact within
  | cons next rest induction => exact induction (length_call_le within next)

end Room

end BoundedList

namespace CallStack

/-- A call on the stack, which stays as it is if the call fails. -/
def call (stack : CallStack) : StackCall → Except Fault (Option Address) × CallStack
  | .push address =>
      match stack.push address with
      | .ok pushed => (.ok none, pushed)
      | .error fault => (.error fault, stack)
  | .pop =>
      match stack.pop with
      | .ok (latest, rest) => (.ok (some latest), rest)
      | .error fault => (.error fault, stack)

def run (stack : CallStack) : List StackCall → List StackReport × CallStack
  | [] => ([], stack)
  | next :: rest =>
      let called := stack.call next
      let others := called.2.run rest
      (⟨called.1, called.2.depth, called.2.isEmpty⟩ :: others.1, others.2)

section View

variable (stack : CallStack)

theorem isEmpty_toList : stack.toList.isEmpty = stack.isEmpty := by
  rw [Bool.eq_iff_iff, List.isEmpty_iff_length_eq_zero, length_toList, isEmpty, beq_iff_eq]

theorem call_toList (next : StackCall) :
    (stack.call next).1 = (BoundedList.call stack.toList next).1 ∧
      (stack.call next).2.toList = (BoundedList.call stack.toList next).2 := by
  cases next with
  | push address =>
      rw [BoundedList.call, length_toList]
      by_cases room : stack.depth < 16
      · obtain ⟨pushed, accepted⟩ := push_of_room address room
        rw [if_pos room, call, accepted]
        exact ⟨rfl, toList_push accepted⟩
      · rw [if_neg room, call, push_of_full address room]
        exact ⟨rfl, rfl⟩
  | pop =>
      by_cases nonempty : 0 < stack.depth
      · obtain ⟨⟨latest, rest⟩, accepted⟩ := pop_of_nonempty nonempty
        rw [toList_pop accepted, call, accepted]
        exact ⟨rfl, rfl⟩
      · have nothing : stack.toList = [] := by
          rw [← List.length_eq_zero_iff, length_toList]
          exact Nat.eq_zero_of_not_pos nonempty
        rw [nothing, call, pop_of_empty nonempty]
        exact ⟨rfl, nothing⟩

theorem run_toList (calls : List StackCall) :
    (stack.run calls).1 = (BoundedList.run stack.toList calls).1 ∧
      (stack.run calls).2.toList = (BoundedList.run stack.toList calls).2 := by
  induction calls generalizing stack with
  | nil => exact ⟨rfl, rfl⟩
  | cons next rest induction =>
      obtain ⟨answer, left⟩ := stack.call_toList next
      -- of the stack that is left only its list goes into the reports to come
      obtain ⟨reports, last⟩ := induction (stack.call next).2
      have length := length_toList (stack.call next).2
      have emptiness := isEmpty_toList (stack.call next).2
      rw [left] at reports last length emptiness
      rw [run, BoundedList.run, answer, length, emptiness, reports]
      exact ⟨rfl, last⟩

end View

/-- From the empty stack on, every row of calls is answered as by a list that starts empty and holds
at most sixteen addresses, and shows its size. Whatever is left in the other slots, stacks with the
same list cannot be told apart. -/
theorem stack_answers_like_its_list (calls : List StackCall) :
    (empty.run calls).1 = (BoundedList.run [] calls).1 ∧
      (empty.run calls).2.toList = (BoundedList.run [] calls).2 ∧
      (empty.run calls).2.depth ≤ 16 ∧
      ∀ first second : CallStack, first.toList = second.toList →
        (first.run calls).1 = (second.run calls).1 := by
  have nothing : empty.toList = [] := rfl
  obtain ⟨reports, last⟩ := empty.run_toList calls
  rw [nothing] at reports last
  refine ⟨reports, last, ?_, ?_⟩
  · rw [← length_toList, last]
    have room : ([] : List Address).length ≤ 16 := Nat.zero_le 16
    exact BoundedList.length_run_le room calls
  · intro first second same
    rw [(first.run_toList calls).1, (second.run_toList calls).1, same]

/-- A popped address stays in its slot, and no later call sees it. The seventeenth push is refused,
and the pop after it answers with the sixteenth. -/
theorem popped_address_is_never_seen :
    let first := (empty.run [.push 0x202, .push 0x300, .pop]).2
    let second := (empty.run [.push 0x202]).2
    let calls := [.pop, .pop, .push 0x400, .pop]
    let many := List.replicate 15 (.push 0x202) ++ [.push 0x204, .push 0x206, .pop]
    first.slots ≠ second.slots ∧ first.toList = second.toList ∧
      (first.run calls).1 = (second.run calls).1 ∧
      (empty.run many).1.drop 16 =
        [⟨.error (.stackOverflow 16), 16, false⟩, ⟨.ok (some 0x204), 15, false⟩] := by
  intro first second calls many
  have same : first.toList = second.toList := rfl
  obtain ⟨_, _, _, alike⟩ := stack_answers_like_its_list calls
  obtain ⟨reports, _⟩ := stack_answers_like_its_list many
  refine ⟨by decide, same, alike first second same, ?_⟩
  rw [reports]
  rfl

end CallStack

end Chip8
