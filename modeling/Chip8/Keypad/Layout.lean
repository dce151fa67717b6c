/-!
Where the keys of the pad are on the host's keyboard. The pad and the block of the keyboard
that stands for it are

    1 2 3 C        1 2 3 4
    4 5 6 D        Q W E R
    7 8 9 E        A S D F
    A 0 B F        Z X C V
-/

namespace Chip8.Keypad

def layout : List (Char × UInt8) :=
  [('1', 0x1), ('2', 0x2), ('3', 0x3), ('4', 0xC),
   ('q', 0x4), ('w', 0x5), ('e', 0x6), ('r', 0xD),
   ('a', 0x7), ('s', 0x8), ('d', 0x9), ('f', 0xE),
   ('z', 0xA), ('x', 0x0), ('c', 0xB), ('v', 0xF)]

/-- Letters count in either case, and only those of ASCII have two. -/
def keyOfSymbol? (symbol : Char) : Option UInt8 :=
  layout.lookup symbol.toLower

def hostKeys : List (String × Char) :=
  [("Key1", '1'), ("Key2", '2'), ("Key3", '3'), ("Key4", '4'),
   ("Q", 'q'), ("W", 'w'), ("E", 'e'), ("R", 'r'),
   ("A", 'a'), ("S", 's'), ("D", 'd'), ("F", 'f'),
   ("Z", 'z'), ("X", 'x'), ("C", 'c'), ("V", 'v')]

def symbolOfHostKey? (name : String) : Option Char :=
  hostKeys.lookup name

theorem keyOfSymbol?_lt {symbol : Char} {key : UInt8} (found : keyOfSymbol? symbol = some key) :
    key.toNat < 16 := by
  have bounded : ∀ entry ∈ layout, entry.2.toNat < 16 := by decide
  obtain ⟨_, _, entries, _⟩ := List.lookup_eq_some_iff.mp found
  exact bounded (symbol.toLower, key) (by simp [entries])

end Chip8.Keypad
