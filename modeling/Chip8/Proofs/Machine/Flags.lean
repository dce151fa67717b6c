import Chip8.Proofs.Instruction.Encoding
import Chip8.Proofs.Machine.Execution
import Mathlib.Data.Nat.Bitwise

/-!
Arithmetic that reports a flag, in numbers. The two operands are read before anything is written,
and the flag is written before the value, so that the equations hold whichever of the registers `VX`,
`VY` and `VF` are one and the same.
-/

namespace Chip8

/-- What an operation computes of two bytes as numbers: the one that it leaves, and the one that it
reports if it reports anything. -/
def AluOp.computed? (left right : Nat) : AluOp → Option (Nat × Nat)
  | .add => some ((left + right) % 256, if 255 < left + right then 1 else 0)
  | .subtract => some ((left + 256 - right) % 256, if right < left then 1 else 0)
  | .shiftRight => some (left / 2, left % 2)
  | .subtractFrom => some ((right + 256 - left) % 256, if left < right then 1 else 0)
  | .shiftLeft => some (2 * left % 256, if 128 ≤ left then 1 else 0)
  | _ => none

section Bytes

variable (x y : UInt8)

theorem toNat_sub_wrapped : (x - y).toNat = (x.toNat + 256 - y.toNat) % 256 := by
  have bound := y.toNat_lt
  rw [UInt8.toNat_sub]
  omega

theorem lowest_bit : (x &&& 1 == 1) = x.toNat.testBit 0 := by
  have masked : (x &&& 1).toNat = x.toNat % 2 := by
    rw [UInt8.toNat_and]
    exact Nat.and_one_is_mod _
  rw [Bool.eq_iff_iff, beq_iff_eq, ← UInt8.toNat_inj, masked, Nat.testBit_zero,
    decide_eq_true_eq]
  rfl

theorem highest_bit : (x &&& 0x80 != 0) = x.toNat.testBit 7 := by
  have masked : (x &&& 0x80).toNat = (x.toNat.testBit 7).toNat * 2 ^ 7 := by
    rw [UInt8.toNat_and]
    exact Nat.and_two_pow _ 7
  rw [Bool.eq_iff_iff, bne_iff_ne, ne_eq, ← UInt8.toNat_inj, masked]
  cases x.toNat.testBit 7 <;> simp

theorem AluOp.computed?_spec {op : AluOp} {value flag : Nat}
    (known : op.computed? x.toNat y.toNat = some (value, flag)) :
    (op.value x y).toNat = value ∧
      ∃ reported, op.flag? x y = some reported ∧ reported.toNat = flag := by
  cases op with
  | add =>
      cases known
      refine ⟨UInt8.toNat_add x y, _, rfl, ?_⟩
      exact Bool.cond_decide _ 1 0
  | subtract =>
      cases known
      refine ⟨toNat_sub_wrapped x y, _, rfl, ?_⟩
      exact Bool.cond_decide _ 1 0
  | subtractFrom =>
      cases known
      refine ⟨toNat_sub_wrapped y x, _, rfl, ?_⟩
      exact Bool.cond_decide _ 1 0
  | shiftRight =>
      cases known
      refine ⟨by simp [value, Nat.shiftRight_eq_div_pow], _, rfl, ?_⟩
      rw [lowest_bit, Nat.toNat_testBit, Nat.pow_zero, Nat.div_one]
  | shiftLeft =>
      cases known
      refine ⟨by simp [value, Nat.shiftLeft_eq, Nat.mul_comm], _, rfl, ?_⟩
      have bound := x.toNat_lt
      rw [highest_bit, Nat.toNat_testBit]
      split <;> omega
  | _ => cases known

end Bytes

namespace Registers

/-- Registers after an operation: its value is in `VX` and its flag in `VF`, unless that is `VX` as
well, and every other register is as before. -/
structure Combined (before after : Registers) (x : UInt8) (value flag : Nat) : Prop where
  value : (after.get x).toNat = value
  flag : x ≠ 0xF → (after.get 0xF).toNat = flag
  others : ∀ number : UInt8, number.toNat < 16 → number ≠ x → number ≠ 0xF →
    after.get number = before.get number

theorem combine_combined (registers : Registers) {op : AluOp} {x : UInt8} (y : UInt8)
    {value flag : Nat} (xShort : x.toNat < 16)
    (known : op.computed? (registers.get x).toNat (registers.get y).toNat = some (value, flag)) :
    registers.Combined (registers.combine op x y) x value flag := by
  obtain ⟨left, reported, flagged, shown⟩ := AluOp.computed?_spec _ _ known
  have written : registers.combine op x y =
      (registers.setFlag reported).set x (op.value (registers.get x) (registers.get y)) := by
    simp only [combine, flagged]
  rw [written]
  have flagShort : (0xF : UInt8).toNat < 16 := by decide
  refine ⟨?_, ?_, ?_⟩
  · rw [get_set_self]
    exact left
  · intro other
    rw [get_set_of_ne _ _ xShort flagShort other.symm, get_setFlag]
    cases reported <;> exact shown
  · intro number short otherX otherFlag
    rw [get_set_of_ne _ _ xShort short otherX, get_setFlag_of_ne _ _ short otherFlag]

end Registers

namespace Machine

/-- A call begins an opcode of family 8. -/
def Begins (machine : Machine) (call : Call) (op : AluOp) (x y : UInt8) : Prop :=
  machine.begun? call = some (.decode (.ofNibbles 0x8 x y op.nibble))

section Operations

variable {machine : Machine} {call : Call} {op : AluOp} {x y : UInt8}

theorem call_of_begins (begun : machine.Begins call op x y) (xShort : x.toNat < 16)
    (yShort : y.toNat < 16) :
    (machine.call call).result = .ok .nothing ∧
      (machine.call call).machine = { machine.poised call with
        registers := machine.registers.combine op x y } := by
  have decoded : .decode (.ofNibbles 0x8 x y op.nibble) = Instruction.combine op x y :=
    @Instruction.decode_encode (.combine op x y) ⟨xShort, yShort⟩ nofun
  have started : machine.begun? call = some (.combine op x y) := begun.trans (by rw [decoded])
  obtain ⟨result, left⟩ := call_of_begun started rfl
  rw [left, apply, poised_registers]
  exact ⟨result, rfl⟩

theorem combined_of_begins (begun : machine.Begins call op x y) (xShort : x.toNat < 16)
    (yShort : y.toNat < 16) {value flag : Nat}
    (known : op.computed? (machine.registers.get x).toNat (machine.registers.get y).toNat =
      some (value, flag)) :
    machine.registers.Combined (machine.call call).machine.registers x value flag := by
  rw [(call_of_begins begun xShort yShort).2]
  exact machine.registers.combine_combined y xShort known

end Operations

/-- Of value and flag together nothing is lost where a sum or a shift overflows, and a difference
takes a sum back, whichever call carries the opcodes out. -/
theorem flags_are_exact_under_aliasing (machine : Machine) (x y : UInt8) (xShort : x.toNat < 16)
    (yShort : y.toNat < 16) :
    let left := (machine.registers.get x).toNat
    let right := (machine.registers.get y).toNat
    (∀ call op value flag, machine.Begins call op x y →
      op.computed? left right = some (value, flag) →
      let later := (machine.call call).machine
      (machine.call call).result = .ok .nothing ∧
      machine.registers.Combined later.registers x value flag ∧
      later = { machine.poised call with registers := later.registers }) ∧
    (x ≠ 0xF → ∀ call,
      let later := (machine.call call).machine.registers
      (machine.Begins call .add x y →
        256 * (later.get 0xF).toNat + (later.get x).toNat = left + right) ∧
      (machine.Begins call .shiftRight x y →
        2 * (later.get x).toNat + (later.get 0xF).toNat = left) ∧
      (machine.Begins call .shiftLeft x y →
        256 * (later.get 0xF).toNat + (later.get x).toNat = 2 * left)) ∧
    (x ≠ y → x ≠ 0xF → y ≠ 0xF → ∀ first second, machine.Begins first .add x y →
      (machine.call first).machine.Begins second .subtract x y →
      (machine.after [first, second]).registers.get x = machine.registers.get x) := by
  intro left right
  have leftBound : left < 256 := (machine.registers.get x).toNat_lt
  have rightBound : right < 256 := (machine.registers.get y).toNat_lt
  refine ⟨?each, ?whole, ?undone⟩
  case each =>
    intro call op value flag begun known later
    obtain ⟨result, left⟩ := call_of_begins begun xShort yShort
    refine ⟨result, combined_of_begins begun xShort yShort known, ?_⟩
    rw [show later = _ from left]
  case whole =>
    intro unflagged call later
    refine ⟨?_, ?_, ?_⟩
    · intro begun
      have sum := combined_of_begins begun xShort yShort rfl
      rw [sum.flag unflagged, sum.value]
      split <;> omega
    · intro begun
      have half := combined_of_begins begun xShort yShort rfl
      rw [half.flag unflagged, half.value]
      exact Nat.div_add_mod left 2
    · intro begun
      have double := combined_of_begins begun xShort yShort rfl
      rw [double.flag unflagged, double.value]
      split <;> omega
  case undone =>
    intro apart xPlain yPlain first second added subtracted
    have sum := combined_of_begins added xShort yShort rfl
    have difference := combined_of_begins subtracted xShort yShort rfl
    have addend := sum.others y yShort apart.symm yPlain
    apply UInt8.toNat_inj.mp
    rw [after_cons, after_cons, after_nil, difference.value, sum.value, addend]
    change ((left + right) % 256 + 256 - right) % 256 = left
    omega

/-- With `X` and `Y` both `VF` the sum overwrites its own carry. In `V3` the sum overflows, and
taking `V5` from it leaves what was there. -/
theorem sum_overwrites_its_carry :
    let machine := { powerOn {} (.cycle #[]) with registers := ⟨Vector.replicate 16 0x99⟩ }
    let later := (machine.call (.execute 0x8FF4)).machine.registers
    (later.get 0xF).toNat = 0x32 ∧ later.get 3 = 0x99 ∧
      (machine.after [.execute 0x8354, .execute 0x8355]).registers.get 3 = 0x99 := by
  intro machine later
  obtain ⟨each, _⟩ := flags_are_exact_under_aliasing machine 0xF 0xF (by decide) (by decide)
  obtain ⟨_, sum, _⟩ := each (.execute 0x8FF4) .add _ _ rfl rfl
  obtain ⟨_, _, undone⟩ := flags_are_exact_under_aliasing machine 3 5 (by decide) (by decide)
  refine ⟨sum.value.trans (by decide), sum.others 3 (by decide) (by decide) (by decide), ?_⟩
  exact undone (by decide) (by decide) (by decide) (.execute 0x8354) (.execute 0x8355) rfl rfl

end Machine

end Chip8
