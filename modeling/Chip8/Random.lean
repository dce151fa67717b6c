/-!
Where random bytes come from: an endless sequence of words and the number of those that have
been used. A byte takes one word and is its lowest eight bits.
-/

namespace Chip8

structure WordSource where
  word : Nat → UInt32
  used : Nat

namespace WordSource

/-- Goes round a list of words. Without any, all words are zero. -/
def cycle (words : Array UInt32) : WordSource where
  word position := words.getD (position % words.size) 0
  used := 0

def nextByte (source : WordSource) : UInt8 × WordSource :=
  ((source.word source.used).toUInt8, { source with used := source.used + 1 })

end WordSource

end Chip8
