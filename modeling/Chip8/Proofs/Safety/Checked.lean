import Chip8.Memory
import Mathlib.Algebra.Group.Nat.Defs

/-!
Evaluation that stops where something could go wrong for good: at a number that does not fit its
type, at a shift by a whole word, at a place that an array does not have. An operation is safe if
this evaluation of it answers what the operation itself answers. What wraps round by design has no
hazard, and neither has a division by a constant.
-/

namespace Chip8

/-- What ends an evaluation for good. A fault does not: it is an answer. -/
inductive Hazard where
  | overflow
  | shiftedOut
  | outside
  /-- Two ranges of different lengths were to be copied one over the other. -/
  | lengthsDiffer
  /-- A case came up that was left out as impossible. -/
  | unreachable
  deriving DecidableEq, Repr

abbrev Checked := Except Hazard

namespace Checked

section Arithmetic

variable (bits : Nat)

def sum (first second : Nat) : Checked Nat :=
  if first + second < 2 ^ bits then .ok (first + second) else .error .overflow

def product (first second : Nat) : Checked Nat :=
  if first * second < 2 ^ bits then .ok (first * second) else .error .overflow

/-- No type has negative numbers, so the width does not matter. -/
def difference (first second : Nat) : Checked Nat :=
  if second ≤ first then .ok (first - second) else .error .overflow

def shiftRight (value distance : Nat) : Checked Nat :=
  if distance < bits then .ok (value >>> distance) else .error .shiftedOut

/-- The bits that are shifted out on the left are lost without a hazard. -/
def shiftLeft (value distance : Nat) : Checked Nat :=
  if distance < bits then .ok (value <<< distance % 2 ^ bits) else .error .shiftedOut

end Arithmetic

section Arrays

variable {Value : Type} {size : Nat}

def element (values : Vector Value size) (place : Nat) : Checked Value :=
  if inside : place < size then .ok values[place] else .error .outside

def replaced (values : Vector Value size) (place : Nat) (value : Value) :
    Checked (Vector Value size) :=
  if inside : place < size then .ok (values.set place value) else .error .outside

def extracted (values : Vector Value size) (start stop : Nat) : Checked (List Value) :=
  if start ≤ stop ∧ stop ≤ size then .ok (values.extract start stop).toList else .error .outside

def copied (bytes : Vector UInt8 4096) (start stop : Nat) (source : List UInt8) :
    Checked (Vector UInt8 4096) :=
  if start ≤ stop ∧ stop ≤ 4096 then
    if source.length = stop - start then .ok (Memory.overlay bytes start source)
    else .error .lengthsDiffer
  else .error .outside

/-- Uses a place that has passed a check, or hands on the fault of the check. -/
def usedAt {Answer : Type} (place : Except Fault (Fin size)) (use : Nat → Checked Answer) :
    Checked (Except Fault Answer) :=
  match place with
  | .ok place => do return .ok (← use place.val)
  | .error fault => .ok (.error fault)

end Arrays

@[simp] theorem ok_bind {First Second : Type} (value : First) (next : First → Checked Second) :
    ((.ok value : Checked First) >>= next) = next value := rfl

@[simp] theorem pure_eq_ok {Value : Type} (value : Value) :
    (pure value : Checked Value) = .ok value := rfl

theorem return_of_safe {First Second : Type} {checked : Checked First} {value : First}
    (safe : checked = .ok value) (answer : First → Second) :
    (do return answer (← checked)) = (.ok (answer value) : Checked Second) := by
  rw [safe]
  rfl

section Safe

variable {bits first second : Nat}

theorem sum_of_lt (fits : first + second < 2 ^ bits) :
    sum bits first second = .ok (first + second) := if_pos fits

theorem sum_of_le (beyond : 2 ^ bits ≤ first + second) :
    sum bits first second = .error .overflow := if_neg (Nat.not_lt.mpr beyond)

theorem product_of_lt (fits : first * second < 2 ^ bits) :
    product bits first second = .ok (first * second) := if_pos fits

theorem difference_of_le (within : second ≤ first) :
    difference first second = .ok (first - second) := if_pos within

theorem shiftRight_of_lt {distance : Nat} (value : Nat) (short : distance < bits) :
    shiftRight bits value distance = .ok (value >>> distance) := if_pos short

theorem shiftRight_of_le {distance : Nat} (value : Nat) (far : bits ≤ distance) :
    shiftRight bits value distance = .error .shiftedOut := if_neg (Nat.not_lt.mpr far)

theorem shiftLeft_of_lt {distance : Nat} (value : Nat) (short : distance < bits) :
    shiftLeft bits value distance = .ok (value <<< distance % 2 ^ bits) := if_pos short

variable {Value : Type} {size place : Nat} (values : Vector Value size)

theorem element_of_lt (inside : place < size) : element values place = .ok values[place] :=
  dif_pos inside

theorem replaced_of_lt (value : Value) (inside : place < size) :
    replaced values place value = .ok (values.set place value) := dif_pos inside

theorem extracted_of_le {start stop : Nat} (ordered : start ≤ stop) (inside : stop ≤ size) :
    extracted values start stop = .ok (values.extract start stop).toList :=
  if_pos ⟨ordered, inside⟩

theorem copied_of_fits (bytes : Vector UInt8 4096) {start : Nat} {source : List UInt8}
    (fits : start + source.length ≤ 4096) :
    copied bytes start (start + source.length) source =
      .ok (Memory.overlay bytes start source) := by
  have whole : start ≤ start + source.length ∧ start + source.length ≤ 4096 :=
    ⟨Nat.le_add_right _ _, fits⟩
  rw [copied, if_pos whole, if_pos (Nat.add_sub_cancel_left _ _).symm]

theorem usedAt_eq {Answer : Type} {use : Nat → Checked Answer} {answer : Fin size → Answer}
    (place : Except Fault (Fin size))
    (safe : ∀ place : Fin size, use place.val = .ok (answer place)) :
    usedAt place use = .ok (place.map answer) := by
  cases place with
  | ok place => exact return_of_safe (safe place) _
  | error fault => rfl

end Safe

end Checked

end Chip8
