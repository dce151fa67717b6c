/-!
A countdown that stops at zero.
-/

namespace Chip8

structure Timer where
  count : UInt8
  deriving DecidableEq, Repr

namespace Timer

def stopped : Timer := ⟨0⟩

def isActive (timer : Timer) : Bool := 0 < timer.count

def tick (timer : Timer) : Timer :=
  if timer.count = 0 then timer else ⟨timer.count - 1⟩

@[simp] theorem tick_count (timer : Timer) : timer.tick.count.toNat = timer.count.toNat - 1 := by
  unfold tick
  split
  next zero => simp [zero]
  next positive =>
    have nonzero : timer.count.toNat ≠ 0 := fun same => positive (UInt8.toNat_inj.mp same)
    have atLeastOne : 1 ≤ timer.count := UInt8.le_iff_toNat_le.mpr (show 1 ≤ _ by omega)
    rw [UInt8.toNat_sub_of_le _ _ atLeastOne]
    rfl

end Timer

end Chip8
