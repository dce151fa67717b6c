import Chip8.Proofs.Machine.Commuting
import Chip8.Proofs.Machine.Journal

/-!
Which keys are down. Only the host moves keys, by their numbers or by the symbols that stand for them
on its own keyboard, and neither instructions nor the mode of the machine have a part in it. So a key
is down exactly if the last event about it since the reset was a press.
-/

namespace Chip8

namespace Keypad

def pad : Vector (Vector UInt8 4) 4 := #v[
  #v[0x1, 0x2, 0x3, 0xC],
  #v[0x4, 0x5, 0x6, 0xD],
  #v[0x7, 0x8, 0x9, 0xE],
  #v[0xA, 0x0, 0xB, 0xF]]

/-- The block of the host's keyboard that stands for the pad, row by row. -/
def block : Vector (Vector Char 4) 4 := #v[
  #v['1', '2', '3', '4'],
  #v['q', 'w', 'e', 'r'],
  #v['a', 's', 'd', 'f'],
  #v['z', 'x', 'c', 'v']]

/-- A symbol, in lower case, has the place in the block that the key has on the pad. -/
def StandsFor (symbol : Char) (key : UInt8) : Prop :=
  ∃ row column : Fin 4, block[row][column] = symbol.toLower ∧ pad[row][column] = key

instance (symbol : Char) (key : UInt8) : Decidable (StandsFor symbol key) :=
  inferInstanceAs (Decidable (∃ row column : Fin 4,
    block[row][column] = symbol.toLower ∧ pad[row][column] = key))

def symbols : List Char := "1234qwerasdfzxcvQWERASDFZXCV".toList

theorem keyOfSymbol?_eq_some_iff {symbol : Char} {key : UInt8} :
    keyOfSymbol? symbol = some key ↔ StandsFor symbol key := by
  constructor
  · intro found
    have placed : ∀ entry ∈ layout, ∃ row column : Fin 4,
        block[row][column] = entry.1 ∧ pad[row][column] = entry.2 := by decide
    obtain ⟨_, _, entries, _⟩ := List.lookup_eq_some_iff.mp found
    exact placed (symbol.toLower, key) (by simp [entries])
  · rintro ⟨row, column, lower, rfl⟩
    have listed : ∀ row column : Fin 4,
        layout.lookup block[row][column] = some pad[row][column] := by decide
    rw [keyOfSymbol?, ← lower]
    exact listed row column

theorem keyOfSymbol?_eq_none_iff {symbol : Char} :
    keyOfSymbol? symbol = none ↔ ∀ key, ¬ StandsFor symbol key := by
  simp only [Option.eq_none_iff_forall_ne_some, ne_eq, keyOfSymbol?_eq_some_iff]

theorem StandsFor.key_lt {symbol : Char} {key : UInt8} (stands : StandsFor symbol key) :
    key.toNat < 16 :=
  keyOfSymbol?_lt (keyOfSymbol?_eq_some_iff.mpr stands)

/-- No symbols but the upper and the lower case of a letter have the same lower case. -/
theorem eq_toLower_or_toUpper (symbol : Char) :
    symbol = symbol.toLower ∨ symbol = symbol.toLower.toUpper := by
  by_cases upper : 'A'.val ≤ symbol.val ∧ symbol.val ≤ 'Z'.val
  · right
    have table : ∀ code < 91, 65 ≤ code →
        Char.ofNat code = (Char.ofNat code).toLower.toUpper := by decide
    have first : 65 ≤ symbol.toNat := UInt32.le_iff_toNat_le.mp upper.1
    have last : symbol.toNat ≤ 90 := UInt32.le_iff_toNat_le.mp upper.2
    have entry := table symbol.toNat (by omega) first
    rwa [Char.ofNat_toNat] at entry
  · left
    have same : symbol.toLower = symbol := dif_neg upper
    exact same.symm

theorem mem_symbols_iff {symbol : Char} : symbol ∈ symbols ↔ ∃ key, StandsFor symbol key := by
  constructor
  · intro member
    -- a quantifier over the members would be decided over all characters
    have mapped : symbols.all (fun symbol => (keyOfSymbol? symbol).isSome) = true := by decide
    have some := List.all_eq_true.mp mapped symbol member
    obtain ⟨key, found⟩ := Option.isSome_iff_exists.mp some
    exact ⟨key, keyOfSymbol?_eq_some_iff.mp found⟩
  · rintro ⟨key, row, column, lower, _⟩
    have listed : ∀ row column : Fin 4,
        block[row][column] ∈ symbols ∧ block[row][column].toUpper ∈ symbols := by decide
    rcases eq_toLower_or_toUpper symbol with same | same
    · rw [same, ← lower]
      exact (listed row column).1
    · rw [same, ← lower]
      exact (listed row column).2

theorem isDown_put (keypad : Keypad) {written read : UInt8} (down : Bool)
    (inside : read.toNat < 16) :
    (keypad.put written down).isDown read =
      if written = read then .ok down else keypad.isDown read := by
  by_cases onPad : written.toNat < 16
  · exact isDown_setDown (keypad.setDown_eq_put down onPad) read
  · have apart : written ≠ read := fun same => onPad (same ▸ inside)
    rw [if_neg apart, put_of_le _ down (Nat.not_lt.mp onPad)]

end Keypad

/-- What a call of the host does to a key: it presses the key, or releases it, or does not concern
it. -/
def Call.keyEvent? (key : UInt8) : Call → Option Bool
  | .keyDown pressed => if pressed = key then some true else none
  | .keyUp released => if released = key then some false else none
  | .press symbol => if Keypad.StandsFor symbol key then some true else none
  | .release symbol => if Keypad.StandsFor symbol key then some false else none
  | _ => none

def lastKeyEvent? (key : UInt8) (moments : List Moment) : Option Bool :=
  (moments.filterMap fun moment => moment.call.keyEvent? key).getLast?

section Events

variable {key : UInt8}

theorem lastKeyEvent?_concat (moments : List Moment) (moment : Moment) :
    lastKeyEvent? key (moments ++ [moment]) =
      (moment.call.keyEvent? key).or (lastKeyEvent? key moments) := by
  rw [lastKeyEvent?, List.filterMap_append, List.getLast?_append, lastKeyEvent?]
  cases event : moment.call.keyEvent? key <;> simp [event]

theorem keyEvent?_of_mapped {symbol : Char} {named : UInt8}
    (mapped : Keypad.keyOfSymbol? symbol = some named) :
    (Call.press symbol).keyEvent? key = (Call.keyDown named).keyEvent? key ∧
      (Call.release symbol).keyEvent? key = (Call.keyUp named).keyEvent? key := by
  have same : Keypad.StandsFor symbol key ↔ named = key := by
    rw [← Keypad.keyOfSymbol?_eq_some_iff, mapped, Option.some_inj]
  simp only [Call.keyEvent?, same, and_self]

theorem keyEvent?_of_unmapped {symbol : Char} (unmapped : Keypad.keyOfSymbol? symbol = none) :
    (Call.press symbol).keyEvent? key = none ∧ (Call.release symbol).keyEvent? key = none := by
  have apart := Keypad.keyOfSymbol?_eq_none_iff.mp unmapped key
  simp only [Call.keyEvent?, if_neg apart, and_self]

end Events

namespace Machine

section Keys

variable (machine : Machine) {key : UInt8}

theorem isDown_of_keyDown (inside : key.toNat < 16) (pressed : UInt8) :
    (machine.keyDown pressed).machine.keypad.isDown key =
      ((Call.keyDown pressed).keyEvent? key).elim (machine.keypad.isDown key) .ok := by
  rw [keyDown_keypad, Keypad.isDown_put _ _ inside, Call.keyEvent?]
  split <;> rfl

theorem isDown_of_keyUp (inside : key.toNat < 16) (released : UInt8) :
    (machine.keyUp released).machine.keypad.isDown key =
      ((Call.keyUp released).keyEvent? key).elim (machine.keypad.isDown key) .ok := by
  rw [keyUp_eq_setKey, setKey_keypad, Keypad.isDown_put _ _ inside, Call.keyEvent?]
  split <;> rfl

/-- A call moves a key as its event for the key says, and leaves the others alone. -/
theorem isDown_of_call {call : Call} (other : call ≠ .reset) (inside : key.toNat < 16) :
    (machine.call call).machine.keypad.isDown key =
      (call.keyEvent? key).elim (machine.keypad.isDown key) .ok := by
  have kept : (call.executes = false → .keypad ∉ call.writes) →
      (machine.call call).machine.keypad = machine.keypad :=
    fun host => call_keeps (by simp) other host fun instruction _ => instruction.unwritten (by simp)
  cases call with
  | keyDown pressed => exact isDown_of_keyDown machine inside pressed
  | keyUp released => exact isDown_of_keyUp machine inside released
  | press symbol =>
      rw [Machine.call, Outcome.map_machine]
      cases mapped : Keypad.keyOfSymbol? symbol with
      | some named =>
          rw [press_of_mapped mapped, (keyEvent?_of_mapped mapped).1]
          exact isDown_of_keyDown machine inside named
      | none =>
          rw [press_of_unmapped mapped, (keyEvent?_of_unmapped mapped).1]
          rfl
  | release symbol =>
      rw [Machine.call, Outcome.map_machine]
      cases mapped : Keypad.keyOfSymbol? symbol with
      | some named =>
          rw [release_of_mapped mapped, (keyEvent?_of_mapped mapped).2]
          exact isDown_of_keyUp machine inside named
      | none =>
          rw [release_of_unmapped mapped, (keyEvent?_of_unmapped mapped).2]
          rfl
  | reset => exact absurd rfl other
  | _ =>
      rw [kept (by simp [Call.executes, Call.writes])]
      rfl

theorem isDown_powerOn (config : Config) (random : WordSource) (inside : key.toNat < 16) :
    (powerOn config random).keypad.isDown key = .ok false := by
  rw [powerOn, Keypad.isDown, Keypad.locate_of_lt inside]
  simp [Except.map, Keypad.released]

theorem isDown_after (config : Config) (random : WordSource) (calls : List Call)
    (inside : key.toNat < 16) :
    ((powerOn config random).after calls).keypad.isDown key =
      .ok (decide (lastKeyEvent? key ((powerOn config random).sinceReset calls) = some true)) := by
  refine sinceReset_induction (motive := fun moments machine => machine.keypad.isDown key =
    .ok (decide (lastKeyEvent? key moments = some true))) ?fresh ?next config random calls
  case fresh =>
    intro config random
    exact isDown_powerOn config random inside
  case next =>
    intro moments machine call other induction
    rw [isDown_of_call machine other inside, induction, lastKeyEvent?_concat]
    cases call.keyEvent? key with
    | none => rfl
    | some down => cases down <;> rfl

end Keys

/-- The keys that are down are those whose last event since the reset was a press. A symbol works as
the key that it stands for and every other symbol as nothing, and no other number is a key. -/
theorem keys_follow_their_events (config : Config) (random : WordSource) (calls : List Call) :
    let start := powerOn config random
    let machine := start.after calls
    (∀ key : UInt8, key.toNat < 16 → machine.keypad.isDown key =
      .ok (decide (lastKeyEvent? key (start.sinceReset calls) = some true))) ∧
    (∀ symbol, symbol ∈ Keypad.symbols ↔ ∃ key, Keypad.StandsFor symbol key) ∧
    (∀ symbol key, Keypad.StandsFor symbol key → key.toNat < 16 ∧
      (machine.keyDown key).result = .ok () ∧
      machine.press symbol = (machine.keyDown key).map (fun () => some key) ∧
      (machine.keyUp key).result = .ok () ∧
      machine.release symbol = (machine.keyUp key).map (fun () => some key)) ∧
    (∀ symbol, symbol ∉ Keypad.symbols →
      machine.press symbol = .done machine none ∧ machine.release symbol = .done machine none) ∧
    (∀ key : UInt8, 16 ≤ key.toNat →
      machine.keyDown key = .failed machine (.keyOutOfRange key) ∧
      machine.keyUp key = .failed machine (.keyOutOfRange key)) ∧
    ∀ pressed released key, Keypad.StandsFor pressed key → released.toLower = pressed.toLower →
      let held := (machine.press pressed).machine
      held.keypad.isDown key = .ok true ∧
        (held.release released).machine.keypad.isDown key = .ok false := by
  intro start machine
  refine ⟨?down, fun symbol => Keypad.mem_symbols_iff, ?mapped, ?unmapped, ?outside, ?either⟩
  case down =>
    intro key inside
    exact isDown_after config random calls inside
  case mapped =>
    intro symbol key stands
    have mapped := Keypad.keyOfSymbol?_eq_some_iff.mpr stands
    have inside := stands.key_lt
    exact ⟨inside, keyDown_result inside, press_of_mapped mapped, keyUp_result inside,
      release_of_mapped mapped⟩
  case unmapped =>
    intro symbol unlisted
    have unmapped : Keypad.keyOfSymbol? symbol = none := by
      rw [Keypad.keyOfSymbol?_eq_none_iff]
      intro key stands
      exact unlisted (Keypad.mem_symbols_iff.mpr ⟨key, stands⟩)
    exact ⟨press_of_unmapped unmapped, release_of_unmapped unmapped⟩
  case outside =>
    intro key outside
    exact ⟨keyDown_of_outside outside, keyUp_of_outside outside⟩
  case either =>
    intro pressed released key stands same held
    have standsToo : Keypad.StandsFor released key := by
      rw [Keypad.StandsFor, same]
      exact stands
    have down := @isDown_of_call machine key (.press pressed) nofun stands.key_lt
    have up := @isDown_of_call held key (.release released) nofun stands.key_lt
    rw [Call.keyEvent?, if_pos stands] at down
    rw [Call.keyEvent?, if_pos standsToo] at up
    exact ⟨down, up⟩

/-- The press before the reset is forgotten and the one behind it ends the wait. A letter that is not
of ASCII stands for nothing, whatever it looks like. -/
theorem capital_releases_the_small_letter :
    let calls := [.press 'q', .reset, .execute 0xF30A, .press 'w', .keyDown 0xE, .release 'F']
    let machine := (powerOn {} (.cycle #[])).after calls
    machine.keypad.isDown 4 = .ok false ∧ machine.keypad.isDown 5 = .ok true ∧
      machine.keypad.isDown 0xE = .ok false ∧
      Keypad.StandsFor 'A' 7 ∧ (machine.press 'A').result = .ok (some 7) ∧
      (((machine.press 'A').machine.release 'a').machine.keypad.isDown 7 = .ok false) ∧
      'ſ' ∉ Keypad.symbols ∧ machine.press 'ſ' = .done machine none ∧
      machine.keyUp 0x10 = .failed machine (.keyOutOfRange 0x10) := by
  intro calls machine
  obtain ⟨down, _, mapped, unmapped, outside, either⟩ :=
    keys_follow_their_events {} (.cycle #[]) calls
  have stands : Keypad.StandsFor 'A' 7 := by decide
  have unlisted : 'ſ' ∉ Keypad.symbols := by decide
  obtain ⟨_, pressed, same, _⟩ := mapped 'A' 7 stands
  refine ⟨?_, ?_, ?_, stands, ?_, ?_, unlisted, ?_, ?_⟩
  · exact down 4 (by decide)
  · exact down 5 (by decide)
  · exact down 0xE (by decide)
  · rw [same, Outcome.map_result, pressed]
    rfl
  · exact (either 'A' 'a' 7 stands (by decide)).2
  · exact (unmapped 'ſ' unlisted).1
  · exact (outside 0x10 (by decide)).2

end Machine

end Chip8
