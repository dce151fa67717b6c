/-!
The ChaCha stream with twelve rounds as a source of words. A seed is expanded to a key, the key
and the number of a block give sixteen words, and the blocks are numbered from zero.
-/

namespace Chip8.ChaCha

abbrev Block := Vector UInt32 16

def rotateLeft (word places : UInt32) : UInt32 :=
  word <<< places ||| word >>> (32 - places)

def rotateRight (word places : UInt32) : UInt32 :=
  word >>> places ||| word <<< (32 - places)

/-- Adds the second word to the first, and turns the third by what it then has in common with
the first. -/
def addRotate {size : Nat} (block : Vector UInt32 size) (target addend turned : Fin size)
    (places : UInt32) : Vector UInt32 size :=
  let sum := block[target] + block[addend]
  let mixed := rotateLeft (block[turned] ^^^ sum) places
  (block.set target sum).set turned mixed

def quarterRound (block : Block) (a b c d : Fin 16) : Block :=
  let first := addRotate block a b d 16
  let second := addRotate first c d b 12
  let third := addRotate second a b d 8
  addRotate third c d b 7

def doubleRound (block : Block) : Block :=
  let columns := quarterRound (quarterRound (quarterRound (quarterRound block
    0 4 8 12) 1 5 9 13) 2 6 10 14) 3 7 11 15
  quarterRound (quarterRound (quarterRound (quarterRound columns
    0 5 10 15) 1 6 11 12) 2 7 8 13) 3 4 9 14

def constants : Vector UInt32 4 := #v[0x61707865, 0x3320646E, 0x79622D32, 0x6B206574]

/-- The number of a block takes two words, the low one first, and two zeros follow it. -/
def counter (number : UInt64) : Vector UInt32 4 := #v[number.toUInt32,
  (number >>> 32).toUInt32, 0, 0]

def initialBlock (key : Vector UInt32 8) (number : UInt64) : Block :=
  constants ++ key ++ counter number

def block (key : Vector UInt32 8) (number : UInt64) : Block :=
  let start := initialBlock key number
  start.zipWith (· + ·) (Nat.repeat doubleRound 6 start)

def advance (state : UInt64) : UInt64 :=
  state * 6364136223846793005 + 11634580027462260723

/-- A word is cut from the high half of the state and turned by the state's highest bits. -/
def keyWord (state : UInt64) : UInt32 :=
  rotateRight (((state >>> 18) ^^^ state) >>> 27).toUInt32 (state >>> 59).toUInt32

def keyOfSeed (seed : UInt64) : Vector UInt32 8 :=
  Vector.ofFn fun place => keyWord (Nat.repeat advance (place.val + 1) seed)

def words (seed : UInt64) (position : Nat) : UInt32 :=
  (block (keyOfSeed seed) (position / 16).toUInt64)[position % 16]

end Chip8.ChaCha
