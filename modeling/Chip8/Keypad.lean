import Chip8.Fault

/-!
The sixteen keys of the pad, each up or down.
-/

namespace Chip8

structure Keypad where
  down : Vector Bool 16
  deriving DecidableEq, Repr

namespace Keypad

def released : Keypad := ⟨Vector.replicate 16 false⟩

def locate (key : UInt8) : Except Fault (Fin 16) :=
  if inside : key.toNat < 16 then .ok ⟨key.toNat, inside⟩
  else .error (.keyOutOfRange key)

def isDown (keypad : Keypad) (key : UInt8) : Except Fault Bool :=
  (locate key).map fun place => keypad.down[place]

def setDown (keypad : Keypad) (key : UInt8) (down : Bool) : Except Fault Keypad :=
  (locate key).map fun (place : Fin 16) => ⟨keypad.down.set place down⟩

theorem isDown_setDown {keypad changed : Keypad} {written : UInt8} {down : Bool}
    (accepted : keypad.setDown written down = .ok changed) (read : UInt8) :
    changed.isDown read = if written = read then .ok down else keypad.isDown read := by
  unfold setDown locate at accepted
  split at accepted
  next inside =>
    cases accepted
    by_cases same : written = read
    · subst same
      simp [isDown, locate, inside, Except.map]
    · have apart : written.toNat ≠ read.toNat := fun equal => same (UInt8.toNat_inj.mp equal)
      rw [if_neg same, isDown, isDown, locate]
      split <;> simp [Except.map, Vector.getElem_set_ne _ _ apart]
  next => cases accepted

end Keypad

end Chip8
