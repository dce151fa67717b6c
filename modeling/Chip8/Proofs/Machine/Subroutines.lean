import Chip8.Proofs.Machine.Execution
import Chip8.Proofs.Machine.Frames

/-!
Calls of subroutines and their returns. A call on the machine takes at most one return address on
or off the stack, and takes one off only to go there. So whatever happens inside a subroutine, the
addresses below it stay, and the first moment at which they are all that is left is its return.
-/

namespace Chip8

theorem Instruction.decode_of_family_two {opcode : Opcode} (family : opcode.family = 2) :
    decode opcode = .call opcode.address := by
  rw [decode, family]
  rfl

namespace Machine

inductive StackChange (before after : Machine) : Prop where
  | kept (same : after.stack = before.stack)
  | pushed {address : Address} (grown : after.stack.toList = address :: before.stack.toList)
  | popped (shrunk : before.stack.toList = after.pc :: after.stack.toList)

theorem leave_stack (machine : Machine) : StackChange machine machine.leave.machine := by
  unfold leave
  split
  next popped accepted => exact .popped (CallStack.toList_pop accepted)
  next => exact .kept rfl

theorem enter_stack (machine : Machine) (target : Address) :
    StackChange machine (machine.enter target).machine := by
  unfold enter
  split
  next pushed accepted => exact .pushed (CallStack.toList_push accepted)
  next => exact .kept rfl

theorem apply_stack (machine : Machine) (instruction : Instruction) :
    StackChange machine (machine.apply instruction).machine := by
  by_cases unwritten : .stack ∈ instruction.writes
  · cases instruction with
    | ret => exact leave_stack machine
    | call target => exact enter_stack machine target
    | _ => simp [Instruction.writes] at unwritten
  · exact .kept (apply_agree machine unwritten)

theorem poised_stack (machine : Machine) (call : Call) :
    (machine.poised call).stack = machine.stack := by
  cases call <;> rfl

theorem executed_stack (machine : Machine) {call : Call} (executes : call.executes = true) :
    StackChange machine (machine.call call).machine := by
  have record := executed machine executes
  generalize (machine.call call).result = result, (machine.call call).machine = left at record ⊢
  cases record with
  | refused => exact .kept rfl
  | dropped => exact .kept rfl
  | waited => exact .kept rfl
  | expired => exact .kept rfl
  | unreadable => exact .kept rfl
  | faulted => exact .kept (poised_stack machine call)
  | @carriedOut _ instruction running issued clear =>
      have change := apply_stack (machine.poised call) instruction
      have same := poised_stack machine call
      cases change with
      | kept left => exact .kept (left.trans same)
      | pushed grown => exact .pushed (same ▸ grown)
      | popped shrunk => exact .popped (same ▸ shrunk)

theorem call_stack (machine : Machine) {call : Call} (other : call ≠ .reset) :
    StackChange machine (machine.call call).machine := by
  cases executes : call.executes with
  | true => exact executed_stack machine executes
  | false =>
      have unwritten : .stack ∉ call.writes := by
        cases call with
        | reset => exact absurd rfl other
        | step => cases executes
        | execute opcode => cases executes
        | perform instruction => cases executes
        | _ => simp [Call.writes]
      exact .kept (call_agree machine unwritten)

section Frame

variable {machine : Machine} {address : Address} {below : List Address}

theorem call_frame {call : Call} (other : call ≠ .reset)
    (inside : address :: below <:+ machine.stack.toList) :
    address :: below <:+ (machine.call call).machine.stack.toList ∨
      (machine.call call).machine.stack.toList = below ∧
        (machine.call call).machine.pc = address := by
  cases call_stack machine other with
  | kept same =>
      left
      rw [same]
      exact inside
  | pushed grown =>
      left
      rw [grown]
      exact inside.trans (List.suffix_cons _ _)
  | popped shrunk =>
      rw [shrunk] at inside
      rcases List.suffix_cons_iff.mp inside with whole | deeper
      · cases whole
        exact .inr ⟨rfl, rfl⟩
      · exact .inl deeper

/-- Until the stack is back at the depth below a frame, the frame is untouched; the call that
brings it there is the return to the frame's address. -/
theorem after_frame {calls : List Call} (unreset : .reset ∉ calls)
    (inside : address :: below <:+ machine.stack.toList)
    (first : ∀ earlier, earlier <+: calls → earlier ≠ calls →
      (machine.after earlier).stack.depth ≠ below.length) :
    address :: below <:+ (machine.after calls).stack.toList ∨
      (machine.after calls).stack.toList = below ∧ (machine.after calls).pc = address := by
  induction calls generalizing machine with
  | nil => exact .inl inside
  | cons call rest induction =>
      rw [List.mem_cons, not_or] at unreset
      rcases call_frame (Ne.symm unreset.1) inside with deeper | ⟨left, returned⟩
      · apply induction unreset.2 deeper
        intro earlier before proper
        exact first (call :: earlier) (List.cons_prefix_cons.mpr ⟨rfl, before⟩)
          (fun same => proper (List.tail_eq_of_cons_eq same))
      · by_cases last : rest = []
        · subst last
          exact .inr ⟨left, returned⟩
        · have depth : (machine.after [call]).stack.depth = below.length := by
            rw [← CallStack.length_toList, after_cons, after_nil, left]
          have proper : [call] ≠ call :: rest :=
            fun same => last (List.tail_eq_of_cons_eq same).symm
          exact absurd depth (first [call] (by simp) proper)

end Frame

theorem step_of_family_two {machine : Machine} {opcode : Opcode}
    (running : machine.mode = .running) (room : machine.stack.depth < 16)
    (read : machine.memory.word machine.pc = .ok opcode) (family : opcode.family = 2) :
    ∃ stack, machine.stack.push machine.pc.next = .ok stack ∧ machine.step.result = .ok () ∧
      machine.step.machine = { machine with pc := opcode.address, stack } := by
  obtain ⟨stack, accepted⟩ := CallStack.push_of_room machine.pc.next room
  have ready : (machine.poised .step).mode = .running := running
  have clear : (machine.poised .step).fault? (.call opcode.address) = none := if_pos room
  have entered : (machine.poised .step).enter opcode.address =
      .done { machine with pc := opcode.address, stack } () := by
    unfold enter poised
    rw [accepted]
  refine ⟨stack, accepted, ?_⟩
  rw [step_of_word running read, Instruction.decode_of_family_two family,
    perform_of_no_fault ready clear, apply, entered]
  exact ⟨rfl, rfl⟩

theorem subroutine_returns_behind_its_call (machine : Machine) (opcode : Opcode)
    (calls : List Call) (running : machine.mode = .running) (room : machine.stack.depth < 16)
    (read : machine.memory.word machine.pc = .ok opcode) (family : opcode.toNat / 0x1000 = 2)
    (unreset : .reset ∉ calls)
    (first : ∀ earlier, earlier <+: calls → earlier ≠ calls →
      (machine.step.machine.after earlier).stack.depth ≠ machine.stack.depth) :
    let entered := machine.step.machine
    let later := entered.after calls
    let frame := machine.pc.next :: machine.stack.toList
    machine.step.result = .ok () ∧ entered.pc.toNat = opcode.toNat % 0x1000 ∧
    entered.stack.toList = frame ∧
    (later.stack.depth = machine.stack.depth →
      later.pc.toNat = machine.pc.toNat + 2 ∧ later.stack.toList = machine.stack.toList) ∧
    (later.stack.depth ≠ machine.stack.depth → frame <:+ later.stack.toList) := by
  intro entered later frame
  have two : opcode.family = 2 := UInt8.toNat_inj.mp (opcode.family_toNat.trans family)
  obtain ⟨stack, accepted, result, left⟩ := step_of_family_two running room read two
  have state : entered = { machine with pc := opcode.address, stack } := left
  have pc : entered.pc.toNat = opcode.toNat % 0x1000 := by
    rw [state]
    exact opcode.address_toNat
  have whole : entered.stack.toList = frame := by
    rw [state]
    exact CallStack.toList_push accepted
  have inside : frame <:+ entered.stack.toList := whole ▸ List.suffix_rfl
  have run := after_frame unreset inside (by
    intro earlier before proper
    rw [CallStack.length_toList]
    exact first earlier before proper)
  refine ⟨result, pc, whole, ?_, ?_⟩
  · intro back
    rcases run with deeper | ⟨returned, target⟩
    · have longer := deeper.length_le
      rw [List.length_cons, CallStack.length_toList, CallStack.length_toList, back] at longer
      omega
    · exact ⟨target ▸ next_toNat_of_word read, returned⟩
  · intro away
    rcases run with deeper | ⟨returned, target⟩
    · exact deeper
    · have depth := congrArg List.length returned
      rw [CallStack.length_toList, CallStack.length_toList] at depth
      exact absurd depth away

/-- The word at 5 is made of two rows of the font and calls `0x060`. The call inside returns
first, and goes on elsewhere. -/
theorem nested_call_returns_first :
    let machine := { powerOn {} (.cycle #[]) with pc := 5 }
    let later := machine.step.machine.after [.execute 0x2123, .execute 0x00EE, .execute 0x00EE]
    later.pc.toNat = 7 ∧ later.stack.toList = [] := by
  intro machine later
  have read : machine.memory.word machine.pc = .ok 0x2060 :=
    (Memory.word_of_font 5 (by decide)).trans rfl
  have entered : machine.step.machine = { machine with
      pc := 0x060
      stack := ⟨#v[7, 0, 0, 0, 0, 0, 0, 0, 0, 0, 0, 0, 0, 0, 0, 0], 1, by decide⟩ } := by
    rw [step_of_word rfl read]
    rfl
  have returns := subroutine_returns_behind_its_call machine 0x2060
    [.execute 0x2123, .execute 0x00EE, .execute 0x00EE] rfl (by decide) read rfl (by simp) (by
      intro earlier before proper
      rw [entered]
      simp only [List.prefix_cons_iff, List.prefix_nil] at before
      rcases before with rfl | ⟨_, rfl, rfl | ⟨_, rfl, rfl | ⟨_, rfl, rfl⟩⟩⟩
      · decide
      · decide
      · decide
      · exact absurd rfl proper)
  exact returns.2.2.2.1 (by rw [entered]; rfl)

end Machine

end Chip8
