import Chip8.Instruction.Decode
import Chip8.Proofs.Opcode.Fields

/-!
Decoding and encoding as inverses. The opcodes of an instruction are described by a pattern, in
which a hexadecimal digit stands for itself and any other symbol for any digit. No opcode matches
two patterns, one that matches none is unknown, and only the comparisons of two registers leave a
digit of theirs out of account.
-/

namespace Chip8

def digitOf? (symbol : Char) : Option Nat :=
  if '0' ≤ symbol ∧ symbol ≤ '9' then some (symbol.toNat - '0'.toNat)
  else if 'A' ≤ symbol ∧ symbol ≤ 'F' then some (symbol.toNat - 'A'.toNat + 10)
  else none

namespace Opcode

def numerals (opcode : Opcode) : List Nat :=
  [opcode.toNat / 4096, opcode.toNat / 256 % 16, opcode.toNat / 16 % 16, opcode.toNat % 16]

def hasPattern (opcode : Opcode) (pattern : String) : Bool :=
  (pattern.toList.zip opcode.numerals).all fun (symbol, digit) =>
    (digitOf? symbol).all (digit == ·)

/-- What is left of an opcode when it has been decoded. A comparison of two registers does not look
at the last digit. -/
def kept (opcode : Opcode) : Opcode :=
  if opcode.toNat / 4096 = 5 ∨ opcode.toNat / 4096 = 9 then opcode / 16 * 16 else opcode

theorem kept_of_family {opcode : Opcode} {family : Nat} (known : opcode.family.toNat = family) :
    opcode.kept = if family = 5 ∨ family = 9 then opcode / 16 * 16 else opcode := by
  rw [kept, ← family_toNat, known]

section Layouts

variable {opcode : Opcode} {family byte : UInt8}

theorem ofAddress_of_family (known : opcode.family.toNat = family.toNat) :
    ofAddress family opcode.address = opcode := by
  rw [← UInt8.toNat_inj.mp known, ofAddress_fields]

theorem ofByte_of_family (known : opcode.family.toNat = family.toNat) :
    ofByte family opcode.x opcode.byte = opcode := by
  rw [← UInt8.toNat_inj.mp known, ofByte_fields]

theorem ofByte_of_byte (known : opcode.family.toNat = family.toNat)
    (selects : opcode.byte.toNat = byte.toNat) : ofByte family opcode.x byte = opcode := by
  rw [← UInt8.toNat_inj.mp selects, ofByte_of_family known]

theorem ofNibbles_of_family (known : opcode.family.toNat = family.toNat) :
    ofNibbles family opcode.x opcode.y opcode.nibble = opcode := by
  rw [← UInt8.toNat_inj.mp known, ofNibbles_fields]

theorem ofNibbles_zero_of_family (known : opcode.family.toNat = family.toNat) :
    ofNibbles family opcode.x opcode.y 0 = opcode / 16 * 16 := by
  rw [← UInt8.toNat_inj.mp known, ofNibbles_zero]

end Layouts

end Opcode

def Condition.pattern : Condition → String
  | .byteIs _ _ => "3XKK"
  | .byteIsNot _ _ => "4XKK"
  | .same _ _ => "5XY_"
  | .differ _ _ => "9XY_"
  | .keyDown _ => "EX9E"
  | .keyUp _ => "EXA1"

def AluOp.pattern : AluOp → String
  | .copy => "8XY0"
  | .or => "8XY1"
  | .and => "8XY2"
  | .xor => "8XY3"
  | .add => "8XY4"
  | .subtract => "8XY5"
  | .shiftRight => "8XY6"
  | .subtractFrom => "8XY7"
  | .shiftLeft => "8XYE"

namespace Instruction

def pattern? : Instruction → Option String
  | .clearScreen => some "00E0"
  | .ret => some "00EE"
  | .jump _ => some "1NNN"
  | .call _ => some "2NNN"
  | .skipIf condition => some condition.pattern
  | .setByte _ _ => some "6XKK"
  | .addByte _ _ => some "7XKK"
  | .combine op _ _ => some op.pattern
  | .setIndex _ => some "ANNN"
  | .jumpOffset _ => some "BNNN"
  | .random _ _ => some "CXKK"
  | .draw _ _ _ => some "DXYN"
  | .readDelay _ => some "FX07"
  | .awaitKey _ => some "FX0A"
  | .setDelay _ => some "FX15"
  | .setSound _ => some "FX18"
  | .addToIndex _ => some "FX1E"
  | .pointAtGlyph _ => some "FX29"
  | .storeDecimal _ => some "FX33"
  | .storeRegisters _ => some "FX55"
  | .loadRegisters _ => some "FX65"
  | .unknown _ => none

def patterns : List String :=
  ["00E0", "00EE", "1NNN", "2NNN", "3XKK", "4XKK", "5XY_", "6XKK", "7XKK",
    "8XY0", "8XY1", "8XY2", "8XY3", "8XY4", "8XY5", "8XY6", "8XY7", "8XYE",
    "9XY_", "ANNN", "BNNN", "CXKK", "DXYN", "EX9E", "EXA1",
    "FX07", "FX0A", "FX15", "FX18", "FX1E", "FX29", "FX33", "FX55", "FX65"]

end Instruction

/-- The operands fit their fields. A byte fills its field in any case. -/
def Condition.Fits : Condition → Prop
  | .byteIs x _ => x.toNat < 16
  | .byteIsNot x _ => x.toNat < 16
  | .same x y => x.toNat < 16 ∧ y.toNat < 16
  | .differ x y => x.toNat < 16 ∧ y.toNat < 16
  | .keyDown x => x.toNat < 16
  | .keyUp x => x.toNat < 16

def Instruction.Fits : Instruction → Prop
  | .clearScreen => True
  | .ret => True
  | .jump target => target.toNat < 4096
  | .call target => target.toNat < 4096
  | .skipIf condition => condition.Fits
  | .setByte x _ => x.toNat < 16
  | .addByte x _ => x.toNat < 16
  | .combine _ x y => x.toNat < 16 ∧ y.toNat < 16
  | .setIndex address => address.toNat < 4096
  | .jumpOffset address => address.toNat < 4096
  | .random x _ => x.toNat < 16
  | .draw x y height => x.toNat < 16 ∧ y.toNat < 16 ∧ height.toNat < 16
  | .readDelay x => x.toNat < 16
  | .awaitKey x => x.toNat < 16
  | .setDelay x => x.toNat < 16
  | .setSound x => x.toNat < 16
  | .addToIndex x => x.toNat < 16
  | .pointAtGlyph x => x.toNat < 16
  | .storeDecimal x => x.toNat < 16
  | .storeRegisters last => last.toNat < 16
  | .loadRegisters last => last.toNat < 16
  | .unknown _ => True

theorem AluOp.nibble_of_ofNibble? {nibble : UInt8} {op : AluOp}
    (found : ofNibble? nibble = some op) : op.nibble = nibble := by
  apply UInt8.toNat_inj.mp
  unfold ofNibble? at found
  split at found
  all_goals cases found
  all_goals
    rename_i digit
    rw [digit]
    rfl

namespace Instruction

/-- An instruction stands for an opcode: its operands fit their fields, and encoding it gives the
opcode again, or what is kept of it. It belongs to no pattern that the opcode has not. -/
structure StandsFor (instruction : Instruction) (opcode kept : Opcode) : Prop where
  fits : instruction.Fits
  encode : instruction.encode = kept
  pattern : ∀ pattern, instruction.pattern? = some pattern → opcode.hasPattern pattern = true
  unknown : ∀ raw, instruction = .unknown raw → raw = opcode

section Decoders

variable {opcode : Opcode}

theorem unknown_standsFor (opcode : Opcode) : (unknown opcode).StandsFor opcode opcode where
  fits := trivial
  encode := rfl
  pattern := nofun
  unknown := by
    intro raw same
    exact (unknown.inj same).symm

theorem decodeSystem_standsFor (opcode : Opcode) :
    (decodeSystem opcode).StandsFor opcode opcode := by
  unfold decodeSystem
  split
  case h_3 => exact unknown_standsFor opcode
  all_goals
    rename_i whole
    refine ⟨trivial, UInt16.toNat_inj.mp whole.symm, ?_, nofun⟩
    intro pattern named
    cases named
    simp [Opcode.hasPattern, Opcode.numerals, digitOf?, whole]

theorem decodeArithmetic_standsFor (family : opcode.family.toNat = 0x8) :
    (decodeArithmetic opcode).StandsFor opcode opcode := by
  have leading := opcode.family_toNat.symm.trans family
  unfold decodeArithmetic
  split
  next op found =>
    have last := AluOp.nibble_of_ofNibble? found
    have units : opcode.toNat % 16 = op.nibble.toNat := by rw [last, Opcode.nibble_toNat]
    refine ⟨⟨opcode.x_lt, opcode.y_lt⟩, ?_, ?_, nofun⟩
    · rw [encode, last]
      exact Opcode.ofNibbles_of_family family
    · intro pattern named
      cases named
      cases op <;>
        simp [AluOp.pattern, Opcode.hasPattern, Opcode.numerals, digitOf?, leading, units,
          AluOp.nibble]
  next => exact unknown_standsFor opcode

theorem decodeKey_standsFor (family : opcode.family.toNat = 0xE) :
    (decodeKey opcode).StandsFor opcode opcode := by
  have leading := opcode.family_toNat.symm.trans family
  obtain ⟨tens, units⟩ := opcode.byte_digits
  unfold decodeKey
  split
  case h_3 => exact unknown_standsFor opcode
  all_goals
    rename_i byte
    refine ⟨opcode.x_lt, Opcode.ofByte_of_byte family byte, ?_, nofun⟩
    intro pattern named
    cases named
    simp [Condition.pattern, Opcode.hasPattern, Opcode.numerals, digitOf?, leading, tens, units,
      byte]

theorem decodeDevice_standsFor (family : opcode.family.toNat = 0xF) :
    (decodeDevice opcode).StandsFor opcode opcode := by
  have leading := opcode.family_toNat.symm.trans family
  obtain ⟨tens, units⟩ := opcode.byte_digits
  unfold decodeDevice
  split
  case h_10 => exact unknown_standsFor opcode
  all_goals
    rename_i byte
    refine ⟨opcode.x_lt, Opcode.ofByte_of_byte family byte, ?_, nofun⟩
    intro pattern named
    cases named
    simp [Opcode.hasPattern, Opcode.numerals, digitOf?, leading, tens, units, byte]

/-- One case for each family, those with the same layout together. -/
theorem decode_standsFor (opcode : Opcode) : (decode opcode).StandsFor opcode opcode.kept := by
  have leading := opcode.family_toNat
  have single := opcode.family_lt
  unfold decode
  split
  case h_1 family =>
    rw [Opcode.kept_of_family family]
    exact decodeSystem_standsFor opcode
  case h_9 family =>
    rw [Opcode.kept_of_family family]
    exact decodeArithmetic_standsFor family
  case h_15 family =>
    rw [Opcode.kept_of_family family]
    exact decodeKey_standsFor family
  case h_16 family =>
    rw [Opcode.kept_of_family family]
    exact decodeDevice_standsFor family
  case h_2 family | h_3 family | h_11 family | h_12 family =>
    rw [Opcode.kept_of_family family]
    refine ⟨opcode.address_lt, Opcode.ofAddress_of_family family, ?_, nofun⟩
    intro pattern named
    cases named
    simp [Opcode.hasPattern, Opcode.numerals, digitOf?, ← leading, family]
  case h_4 family | h_5 family | h_7 family | h_8 family | h_13 family =>
    rw [Opcode.kept_of_family family]
    refine ⟨opcode.x_lt, Opcode.ofByte_of_family family, ?_, nofun⟩
    intro pattern named
    cases named
    simp [Condition.pattern, Opcode.hasPattern, Opcode.numerals, digitOf?, ← leading, family]
  case h_6 family | h_10 family =>
    rw [Opcode.kept_of_family family]
    refine ⟨⟨opcode.x_lt, opcode.y_lt⟩, Opcode.ofNibbles_zero_of_family family, ?_, nofun⟩
    intro pattern named
    cases named
    simp [Condition.pattern, Opcode.hasPattern, Opcode.numerals, digitOf?, ← leading, family]
  case h_14 family =>
    rw [Opcode.kept_of_family family]
    refine ⟨⟨opcode.x_lt, opcode.y_lt, opcode.nibble_lt⟩, Opcode.ofNibbles_of_family family, ?_,
      nofun⟩
    intro pattern named
    cases named
    simp [Opcode.hasPattern, Opcode.numerals, digitOf?, ← leading, family]
  case h_17 => grind

/-- No opcode has a pattern other than that of its instruction. -/
theorem pattern?_of_hasPattern (opcode : Opcode) : ∀ pattern ∈ patterns,
    opcode.hasPattern pattern = true → (decode opcode).pattern? = some pattern := by
  have family := opcode.family_toNat
  have nibble := opcode.nibble_toNat
  have byte := opcode.byte_of_digits
  simp only [patterns, List.forall_mem_cons, List.not_mem_nil, false_implies, implies_true,
    and_true]
  and_intros
  all_goals
    intro has
    simp [Opcode.hasPattern, Opcode.numerals, digitOf?] at has
  · have whole : opcode.toNat = 0x00E0 := by omega
    simp [decode, decodeSystem, pattern?, family, whole]
  · have whole : opcode.toNat = 0x00EE := by omega
    simp [decode, decodeSystem, pattern?, family, whole]
  all_goals
    simp [decode, decodeArithmetic, decodeKey, decodeDevice, AluOp.ofNibble?, pattern?,
      Condition.pattern, AluOp.pattern, family, nibble, byte, has]

end Decoders

section Encoded

open Opcode

theorem decode_encode_condition {condition : Condition} (fits : condition.Fits) :
    decode condition.encode = .skipIf condition := by
  cases condition with
  | byteIs x byte | byteIsNot x byte | keyDown x | keyUp x =>
      have xShort : x.toNat < 16 := fits
      simp (disch := first | exact xShort | decide) [Condition.encode, decode, decodeKey,
        family_ofByte, x_ofByte, byte_ofByte]
  | same x y | differ x y =>
      obtain ⟨xShort, yShort⟩ := fits
      simp (disch := first | exact xShort | exact yShort | decide) [Condition.encode, decode,
        family_ofNibbles, x_ofNibbles, y_ofNibbles]

theorem decode_encode {instruction : Instruction} (fits : instruction.Fits)
    (known : ∀ opcode, instruction ≠ .unknown opcode) :
    decode instruction.encode = instruction := by
  cases instruction with
  | clearScreen | ret => rfl
  | unknown opcode => exact absurd rfl (known opcode)
  | skipIf condition => exact decode_encode_condition fits
  | jump address | call address | setIndex address | jumpOffset address =>
      have short : address.toNat < 4096 := fits
      simp (disch := first | exact short | decide) [encode, decode, family_ofAddress,
        address_ofAddress]
  | combine op x y =>
      obtain ⟨xShort, yShort⟩ := fits
      have short : op.nibble.toNat < 16 := by cases op <;> decide
      simp (disch := first | exact xShort | exact yShort | exact short | decide) [encode, decode,
        decodeArithmetic, family_ofNibbles, x_ofNibbles, y_ofNibbles, nibble_ofNibbles,
        AluOp.ofNibble?_nibble]
  | draw x y height =>
      obtain ⟨xShort, yShort, short⟩ := fits
      simp (disch := first | exact xShort | exact yShort | exact short | decide) [encode, decode,
        family_ofNibbles, x_ofNibbles, y_ofNibbles, nibble_ofNibbles]
  | setByte x byte | addByte x byte | random x byte =>
      have xShort : x.toNat < 16 := fits
      simp (disch := first | exact xShort | decide) [encode, decode, family_ofByte, x_ofByte,
        byte_ofByte]
  | _ x =>
      have xShort : x.toNat < 16 := fits
      simp (disch := first | exact xShort | decide) [encode, decode, decodeDevice, family_ofByte,
        x_ofByte, byte_ofByte]

end Encoded

theorem mem_patterns {instruction : Instruction} {pattern : String}
    (named : instruction.pattern? = some pattern) : pattern ∈ patterns := by
  cases instruction with
  | skipIf condition => cases condition <;> cases named <;> simp [Condition.pattern, patterns]
  | combine op x y => cases op <;> cases named <;> decide
  | _ => cases named <;> decide

theorem decode_eq_unknown_iff (opcode raw : Opcode) :
    decode opcode = .unknown raw ↔
      raw = opcode ∧ ∀ pattern ∈ patterns, opcode.hasPattern pattern = false := by
  have stands := decode_standsFor opcode
  constructor
  · intro same
    refine ⟨stands.unknown raw same, ?_⟩
    intro pattern listed
    cases has : opcode.hasPattern pattern with
    | false => rfl
    | true =>
        have named := pattern?_of_hasPattern opcode pattern listed has
        rw [same] at named
        cases named
  · rintro ⟨rfl, unlisted⟩
    have nameless : ∀ pattern, (decode raw).pattern? ≠ some pattern := by
      intro pattern named
      have has := stands.pattern pattern named
      rw [unlisted pattern (mem_patterns named)] at has
      cases has
    cases same : decode raw with
    | unknown word => rw [stands.unknown word same]
    | _ =>
        rw [same] at nameless
        exact absurd rfl (nameless _)

theorem decode_of_comparison {first second : Opcode}
    (compares : first.toNat / 4096 = 5 ∨ first.toNat / 4096 = 9)
    (upper : first.toNat / 16 = second.toNat / 16) : decode first = decode second := by
  have family : first.family.toNat = second.family.toNat := by
    rw [Opcode.family_toNat, Opcode.family_toNat]
    omega
  have x : first.x = second.x := by
    apply UInt8.toNat_inj.mp
    rw [Opcode.x_toNat, Opcode.x_toNat]
    omega
  have y : first.y = second.y := by
    apply UInt8.toNat_inj.mp
    rw [Opcode.y_toNat, Opcode.y_toNat, upper]
  rw [← Opcode.family_toNat, family] at compares
  rcases compares with five | nine
  · simp only [decode, family, five, x, y]
  · simp only [decode, family, nine, x, y]

theorem decode_eq_iff (first second : Opcode) :
    decode first = decode second ↔
      first = second ∨ (first.toNat / 4096 = 5 ∨ first.toNat / 4096 = 9) ∧
        first.toNat / 16 = second.toNat / 16 := by
  constructor
  · intro same
    have kept : first.kept = second.kept := by
      rw [← (decode_standsFor first).encode, ← (decode_standsFor second).encode, same]
    have numbers := congrArg UInt16.toNat kept
    have firstBound := first.toNat_lt
    have secondBound := second.toNat_lt
    have cleared : ∀ opcode : Opcode, (opcode / 16 * 16).toNat = opcode.toNat / 16 * 16 := by
      intro opcode
      have bound := opcode.toNat_lt
      rw [UInt16.toNat_mul, UInt16.toNat_div]
      simp
      omega
    unfold Opcode.kept at numbers
    split at numbers <;> split at numbers
    next compares _ =>
      rw [cleared, cleared] at numbers
      exact .inr ⟨compares, by omega⟩
    next compares other =>
      rw [cleared] at numbers
      omega
    next other compares =>
      rw [cleared] at numbers
      omega
    next => exact .inl (UInt16.toNat_inj.mp numbers)
  · rintro (rfl | ⟨compares, upper⟩)
    · rfl
    · exact decode_of_comparison compares upper

/-- Decoding is inverted by encoding in both directions, it knows the opcodes of the patterns and no
others, and it takes two opcodes for one only where a pattern leaves a digit open that no operand
holds. -/
theorem decoding_is_inverted_by_encoding :
    (∀ opcode, (decode opcode).encode =
      if opcode.toNat / 4096 = 5 ∨ opcode.toNat / 4096 = 9 then opcode / 16 * 16 else opcode) ∧
    (∀ instruction, instruction.Fits → (∀ opcode, instruction ≠ .unknown opcode) →
      decode instruction.encode = instruction) ∧
    (∀ opcode, ∀ pattern ∈ patterns,
      opcode.hasPattern pattern = true ↔ (decode opcode).pattern? = some pattern) ∧
    (∀ opcode raw, decode opcode = .unknown raw ↔
      raw = opcode ∧ ∀ pattern ∈ patterns, opcode.hasPattern pattern = false) ∧
    (∀ opcode, (decode opcode).Fits ∧ opcode.family.toNat < 16) ∧
    ∀ first second, decode first = decode second ↔
      first = second ∨ (first.toNat / 4096 = 5 ∨ first.toNat / 4096 = 9) ∧
        first.toNat / 16 = second.toNat / 16 := by
  refine ⟨?_, ?_, ?_, decode_eq_unknown_iff, ?_, decode_eq_iff⟩
  · intro opcode
    exact (decode_standsFor opcode).encode
  · intro instruction fits known
    exact decode_encode fits known
  · intro opcode pattern listed
    exact ⟨pattern?_of_hasPattern opcode pattern listed,
      (decode_standsFor opcode).pattern pattern⟩
  · intro opcode
    exact ⟨(decode_standsFor opcode).fits, opcode.family_lt⟩

/-- The last digit of a comparison is lost, and every digit of a draw is kept. -/
theorem comparison_loses_its_last_digit :
    (decode 0x5AB7).encode = 0x5AB0 ∧ decode 0x5AB7 = decode 0x5AB0 ∧
      decode (draw 0xA 0xB 7).encode = draw 0xA 0xB 7 ∧ decode 0x8AB8 = .unknown 0x8AB8 := by
  obtain ⟨encoded, decoded, _, unknown, _, same⟩ := decoding_is_inverted_by_encoding
  refine ⟨encoded 0x5AB7, (same 0x5AB7 0x5AB0).mpr (.inr ⟨.inl rfl, rfl⟩), ?_, ?_⟩
  · exact decoded (draw 0xA 0xB 7) ⟨by decide, by decide, by decide⟩ nofun
  · exact (unknown 0x8AB8 0x8AB8).mpr ⟨rfl, by decide⟩

end Instruction

end Chip8
