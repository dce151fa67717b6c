import Chip8.Machine.Basic
import Chip8.Random.ChaCha

/-!
How a host comes by a machine. This is the only place where the words are those of a particular
generator; the machine itself takes them from any source.
-/

namespace Chip8

def WordSource.ofSeed (seed : UInt64) : WordSource where
  word := ChaCha.words seed
  used := 0

/-- A seed in the configuration takes the place of the host's supply. -/
def Machine.ofConfig (config : Config) (supply : WordSource) : Machine :=
  powerOn config (match config.seed with
    | some seed => .ofSeed seed
    | none => supply)

end Chip8
