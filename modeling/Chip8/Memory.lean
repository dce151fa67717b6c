import Chip8.Fault

/-!
The memory of the machine: 4096 bytes, all of them writable. The font is at the bottom and
programs are loaded at a fixed address. An access is refused when it lies outside, and the
fault names the address that was refused.
-/

namespace Chip8

/-- Addresses are sixteen bits wide, although only the lowest 4096 name a byte. -/
abbrev Address := UInt16

/-- Instructions take two bytes. The increment wraps round. -/
def Address.next (address : Address) : Address := address + 2

structure Memory where
  bytes : Vector UInt8 4096
  deriving DecidableEq, Repr

namespace Memory

/-- The glyph of digit `d` is the five bytes from `5 * d` on, one byte a row. -/
def glyphHeight : Nat := 5

def font : Vector UInt8 80 := #v[
  0xF0, 0x90, 0x90, 0x90, 0xF0,
  0x20, 0x60, 0x20, 0x20, 0x70,
  0xF0, 0x10, 0xF0, 0x80, 0xF0,
  0xF0, 0x10, 0xF0, 0x10, 0xF0,
  0x90, 0x90, 0xF0, 0x10, 0x10,
  0xF0, 0x80, 0xF0, 0x10, 0xF0,
  0xF0, 0x80, 0xF0, 0x90, 0xF0,
  0xF0, 0x10, 0x20, 0x40, 0x40,
  0xF0, 0x90, 0xF0, 0x90, 0xF0,
  0xF0, 0x90, 0xF0, 0x10, 0xF0,
  0xF0, 0x90, 0xF0, 0x90, 0x90,
  0xE0, 0x90, 0xE0, 0x90, 0xE0,
  0xF0, 0x80, 0x80, 0x80, 0xF0,
  0xE0, 0x90, 0x90, 0x90, 0xE0,
  0xF0, 0x80, 0xF0, 0x80, 0xF0,
  0xF0, 0x80, 0xF0, 0x80, 0x80]

def programStart : Address := 0x200

def programCapacity : Nat := 3584

def initial : Memory :=
  ⟨Vector.ofFn fun place => if inFont : place.val < 80 then font[place.val] else 0⟩

def locate (address : Nat) : Except Fault (Fin 4096) :=
  if inside : address < 4096 then .ok ⟨address, inside⟩
  else .error (.memoryOutOfBounds address)

/-- Looks at the last address of a range only. An empty range is judged by its start. -/
def checkRange (address : Address) (count : Nat) : Except Fault Unit :=
  if count = 0 then (locate address.toNat).map fun _ => ()
  else (locate (address.toNat + count - 1)).map fun _ => ()

def get (memory : Memory) (address : Address) : Except Fault UInt8 :=
  (locate address.toNat).map fun place => memory.bytes[place]

def set (memory : Memory) (address : Address) (byte : UInt8) : Except Fault Memory :=
  (locate address.toNat).map fun (place : Fin 4096) => ⟨memory.bytes.set place byte⟩

/-- The high byte comes first. The address of the low byte does not wrap round. -/
def word (memory : Memory) (address : Address) : Except Fault UInt16 := do
  let high ← memory.get address
  let low ← (locate (address.toNat + 1)).map fun place => memory.bytes[place]
  return high.toUInt16 <<< 8 ||| low.toUInt16

def slice (memory : Memory) (address : Address) (count : Nat) : Except Fault (List UInt8) :=
  (checkRange address count).map fun _ =>
    (memory.bytes.extract address.toNat (address.toNat + count)).toList

/-- Writes bytes one by one from an address on. The first that lies outside ends the work, and
those before it stay written. -/
def store (memory : Memory) (address : Address) : List UInt8 → Memory × Except Fault Unit
  | [] => (memory, .ok ())
  | byte :: rest =>
      match memory.set address byte with
      | .ok written => written.store (address + 1) rest
      | .error fault => (memory, .error fault)

def overlay (bytes : Vector UInt8 4096) (start : Nat) : List UInt8 → Vector UInt8 4096
  | [] => bytes
  | byte :: rest => overlay (bytes.setIfInBounds start byte) (start + 1) rest

/-- The entry point and the memory that holds the program. Nothing is loaded of a program that
does not fit, and what a longer program left behind a shorter one stays. -/
def load (memory : Memory) (program : List UInt8) : Except Fault (Address × Memory) :=
  if programStart.toNat + program.length ≤ 4096 then
    .ok (programStart, ⟨overlay memory.bytes programStart.toNat program⟩)
  else .error (.programTooLarge program.length programCapacity)

theorem overlay_getElem (bytes : Vector UInt8 4096) (start : Nat) (program : List UInt8)
    (place : Nat) (inside : place < 4096) :
    (overlay bytes start program)[place] =
      if start ≤ place then program.getD (place - start) bytes[place] else bytes[place] := by
  induction program generalizing bytes start with
  | nil => simp [overlay]
  | cons byte rest induction =>
      rw [overlay, induction, Vector.getElem_setIfInBounds]
      by_cases first : start = place
      · subst first
        simp [show ¬ start + 1 ≤ start by omega]
      · by_cases before : start < place
        · obtain ⟨distance, rfl⟩ : ∃ distance, place = start + 1 + distance :=
            ⟨place - (start + 1), by omega⟩
          have whole : start + 1 + distance - start = distance + 1 := by omega
          simp [whole, first, show start ≤ start + 1 + distance by omega]
        · simp [first, show ¬ start + 1 ≤ place by omega, show ¬ start ≤ place by omega]

theorem locate_of_lt {address : Nat} (inside : address < 4096) :
    locate address = .ok ⟨address, inside⟩ := by
  simp [locate, inside]

theorem locate_of_le {address : Nat} (outside : 4096 ≤ address) :
    locate address = .error (.memoryOutOfBounds address) := by
  simp [locate, Nat.not_lt.mpr outside]

theorem initial_getElem (place : Nat) (inside : place < 4096) :
    initial.bytes[place] = if inFont : place < 80 then font[place] else 0 := by
  simp [initial]

theorem get_set {memory changed : Memory} {written : Address} {byte : UInt8}
    (accepted : memory.set written byte = .ok changed) (read : Address) :
    changed.get read = if written = read then .ok byte else memory.get read := by
  unfold set locate at accepted
  split at accepted
  next inside =>
    cases accepted
    by_cases same : written = read
    · subst same
      simp [get, locate, inside, Except.map]
    · have apart : written.toNat ≠ read.toNat := fun equal => same (UInt16.toNat_inj.mp equal)
      rw [if_neg same, get, get, locate]
      split <;> simp [Except.map, Vector.getElem_set_ne _ _ apart]
  next => cases accepted

/-- Bytes that all lie inside are all written: once the range is checked, no write can fail. -/
theorem store_of_fits (memory : Memory) (address : Address) (bytes : List UInt8)
    (fits : address.toNat + bytes.length ≤ 4096) :
    memory.store address bytes = (⟨overlay memory.bytes address.toNat bytes⟩, .ok ()) := by
  induction bytes generalizing memory address with
  | nil => rfl
  | cons byte rest induction =>
      rw [List.length_cons] at fits
      have inside : address.toNat < 4096 := by omega
      have next : (address + 1).toNat = address.toNat + 1 := by
        rw [UInt16.toNat_add]
        exact Nat.mod_eq_of_lt (by show address.toNat + 1 < 65536; omega)
      have written : memory.set address byte =
          .ok ⟨memory.bytes.setIfInBounds address.toNat byte⟩ := by
        rw [set, locate_of_lt inside]
        simp only [Except.map, Except.ok.injEq, mk.injEq]
        ext place bound
        simp [Vector.getElem_setIfInBounds, Vector.getElem_set]
      rw [store, written]
      change store _ (address + 1) rest = _
      rw [induction _ _ (by omega), next, overlay]

end Memory

end Chip8
