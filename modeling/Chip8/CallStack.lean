import Chip8.Memory

/-!
Return addresses of the calls that have not returned, at most sixteen. The slots above the
depth keep what was last in them, and nothing reads it.
-/

namespace Chip8

structure CallStack where
  slots : Vector Address 16
  depth : Nat
  depth_le : depth ≤ 16 := by omega
  deriving DecidableEq, Repr

namespace CallStack

def empty : CallStack where
  slots := Vector.replicate 16 0
  depth := 0

def isEmpty (stack : CallStack) : Bool := stack.depth == 0

/-- The return addresses, the latest first. -/
def toList (stack : CallStack) : List Address :=
  (stack.slots.toList.take stack.depth).reverse

def push (stack : CallStack) (address : Address) : Except Fault CallStack :=
  if room : stack.depth < 16 then
    .ok { slots := stack.slots.set stack.depth address, depth := stack.depth + 1 }
  else .error (.stackOverflow 16)

def pop (stack : CallStack) : Except Fault (Address × CallStack) :=
  if nonempty : 0 < stack.depth then
    have bound := stack.depth_le
    .ok (stack.slots[stack.depth - 1], { slots := stack.slots, depth := stack.depth - 1 })
  else .error .stackUnderflow

@[simp] theorem length_toList (stack : CallStack) : stack.toList.length = stack.depth := by
  have bound := stack.depth_le
  simp [toList]
  omega

theorem toList_push {stack pushed : CallStack} {address : Address}
    (accepted : stack.push address = .ok pushed) : pushed.toList = address :: stack.toList := by
  unfold push at accepted
  split at accepted
  next room =>
    cases accepted
    have whole : stack.depth < (stack.slots.toList.set stack.depth address).length := by
      simpa using room
    rw [toList, Vector.toList_set, List.take_succ_eq_append_getElem whole,
      List.take_set_of_le (Nat.le_refl _), List.getElem_set_self, List.reverse_append]
    rfl
  next => cases accepted

theorem toList_pop {stack rest : CallStack} {address : Address}
    (accepted : stack.pop = .ok (address, rest)) : stack.toList = address :: rest.toList := by
  unfold pop at accepted
  split at accepted
  next nonempty =>
    cases accepted
    have bound := stack.depth_le
    have whole : stack.depth - 1 < stack.slots.toList.length := by simp; omega
    have split := List.take_succ_eq_append_getElem whole
    rw [Nat.sub_add_cancel nonempty] at split
    rw [toList, split]
    simp [toList]
  next => cases accepted

end CallStack

end Chip8
