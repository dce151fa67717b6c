import Chip8.Proofs.Instruction.Encoding

/-!
Where decoded operands come from. Whatever its instruction, an opcode hands over its own fields, so
that the pattern of an opcode settles the instruction together with all its operands.
-/

namespace Chip8

def Condition.TakenFrom (opcode : Opcode) : Condition → Prop
  | .byteIs x byte => x = opcode.x ∧ byte = opcode.byte
  | .byteIsNot x byte => x = opcode.x ∧ byte = opcode.byte
  | .same x y => x = opcode.x ∧ y = opcode.y
  | .differ x y => x = opcode.x ∧ y = opcode.y
  | .keyDown x => x = opcode.x
  | .keyUp x => x = opcode.x

namespace Instruction

def TakenFrom (opcode : Opcode) : Instruction → Prop
  | .clearScreen => True
  | .ret => True
  | .jump target => target = opcode.address
  | .call target => target = opcode.address
  | .skipIf condition => condition.TakenFrom opcode
  | .setByte x byte => x = opcode.x ∧ byte = opcode.byte
  | .addByte x byte => x = opcode.x ∧ byte = opcode.byte
  | .combine op x y => op.nibble = opcode.nibble ∧ x = opcode.x ∧ y = opcode.y
  | .setIndex address => address = opcode.address
  | .jumpOffset address => address = opcode.address
  | .random x mask => x = opcode.x ∧ mask = opcode.byte
  | .draw x y height => x = opcode.x ∧ y = opcode.y ∧ height = opcode.nibble
  | .readDelay x => x = opcode.x
  | .awaitKey x => x = opcode.x
  | .setDelay x => x = opcode.x
  | .setSound x => x = opcode.x
  | .addToIndex x => x = opcode.x
  | .pointAtGlyph x => x = opcode.x
  | .storeDecimal x => x = opcode.x
  | .storeRegisters last => last = opcode.x
  | .loadRegisters last => last = opcode.x
  | .unknown raw => raw = opcode

section Decoders

variable (opcode : Opcode)

theorem decodeSystem_takenFrom : (decodeSystem opcode).TakenFrom opcode := by
  unfold decodeSystem
  split <;> simp [TakenFrom]

theorem decodeArithmetic_takenFrom : (decodeArithmetic opcode).TakenFrom opcode := by
  unfold decodeArithmetic
  split
  next op found => exact ⟨AluOp.nibble_of_ofNibble? found, rfl, rfl⟩
  next => rfl

theorem decodeKey_takenFrom : (decodeKey opcode).TakenFrom opcode := by
  unfold decodeKey
  split <;> simp [TakenFrom, Condition.TakenFrom]

theorem decodeDevice_takenFrom : (decodeDevice opcode).TakenFrom opcode := by
  unfold decodeDevice
  split <;> simp [TakenFrom]

theorem decode_takenFrom : (decode opcode).TakenFrom opcode := by
  unfold decode
  split
  case h_1 => exact decodeSystem_takenFrom opcode
  case h_9 => exact decodeArithmetic_takenFrom opcode
  case h_15 => exact decodeKey_takenFrom opcode
  case h_16 => exact decodeDevice_takenFrom opcode
  all_goals simp [TakenFrom, Condition.TakenFrom]

end Decoders

theorem hasPattern_iff (opcode : Opcode) {pattern : String} (listed : pattern ∈ patterns) :
    opcode.hasPattern pattern = true ↔ (decode opcode).pattern? = some pattern :=
  ⟨pattern?_of_hasPattern opcode pattern listed, (decode_standsFor opcode).pattern pattern⟩

section Settled

variable {opcode : Opcode} {instruction : Instruction} {pattern : String}

/-- An opcode decodes to the instruction that has its pattern and takes its fields as operands. -/
theorem decode_of_pattern (named : instruction.pattern? = some pattern)
    (taken : instruction.TakenFrom opcode) (has : opcode.hasPattern pattern = true) :
    decode opcode = instruction := by
  have family := opcode.family_toNat
  have nibble := opcode.nibble_toNat
  have byte := opcode.byte_of_digits
  cases instruction with
  | unknown raw => cases named
  | clearScreen =>
      cases named
      simp [Opcode.hasPattern, Opcode.numerals, digitOf?] at has
      have whole : opcode.toNat = 0x00E0 := by omega
      simp [decode, decodeSystem, family, whole]
  | ret =>
      cases named
      simp [Opcode.hasPattern, Opcode.numerals, digitOf?] at has
      have whole : opcode.toNat = 0x00EE := by omega
      simp [decode, decodeSystem, family, whole]
  | skipIf condition =>
      cases condition
      all_goals
        cases named
        simp [Condition.pattern, Opcode.hasPattern, Opcode.numerals, digitOf?] at has
        simp [TakenFrom, Condition.TakenFrom] at taken
        simp [decode, decodeKey, family, byte, has, taken]
  | combine op x y =>
      cases op
      all_goals
        cases named
        simp [AluOp.pattern, Opcode.hasPattern, Opcode.numerals, digitOf?] at has
        simp [TakenFrom] at taken
        simp [decode, decodeArithmetic, AluOp.ofNibble?, family, nibble, has, taken]
  | _ =>
      cases named
      simp [Opcode.hasPattern, Opcode.numerals, digitOf?] at has
      simp [TakenFrom] at taken
      simp [decode, decodeDevice, family, byte, has, taken]

end Settled

end Instruction

end Chip8
