/-!
Hexadecimal numerals as the machine's reports write them: upper-case digits, filled with zeros
on the left up to a least width. Longer numbers keep all their digits.
-/

namespace Chip8.Hex

/-- The digits of a number, most significant first; zero has one digit. -/
def digits (value : Nat) : List Char :=
  (Nat.toDigits 16 value).map Char.toUpper

/-- Fills with zeros on the left, and never cuts a digit off. -/
def numeral (width value : Nat) : String :=
  String.ofList (List.replicate (width - (digits value).length) '0' ++ digits value)

/-- A numeral that says it is hexadecimal; the mark is not counted in the width. -/
def marked (width value : Nat) : String :=
  "0x" ++ numeral width value

def bytes (row : List UInt8) : String :=
  "[" ++ ", ".intercalate (row.map fun byte => numeral 2 byte.toNat) ++ "]"

end Chip8.Hex
