/-!
# The keystream behind every random draw

A key of eight words is stretched into an endless sequence of 32-bit words,
sixteen at a time.  Block `n` starts from four constants, the key, the 64-bit
counter `n` and two zero words, runs six double rounds of the ChaCha mixing over
them and adds the result to where it started.
-/

namespace Polarity.Random

abbrev Block := Vector UInt32 16

abbrev Key := Vector UInt32 8

def rotateLeft (word amount : UInt32) : UInt32 :=
  (word <<< amount) ||| (word >>> (32 - amount))

def rotateRight (word amount : UInt32) : UInt32 :=
  (word >>> amount) ||| (word <<< (32 - amount))

def quarterRound (block : Block) (a b c d : Fin 16) : Block :=
  let wordA := block.get a + block.get b
  let wordD := rotateLeft (block.get d ^^^ wordA) 16
  let wordC := block.get c + wordD
  let wordB := rotateLeft (block.get b ^^^ wordC) 12
  let wordA := wordA + wordB
  let wordD := rotateLeft (wordD ^^^ wordA) 8
  let wordC := wordC + wordD
  let wordB := rotateLeft (wordB ^^^ wordC) 7
  (((block.set a wordA).set b wordB).set c wordC).set d wordD

/-- The columns of the block seen as a square of words, then its diagonals. -/
def doubleRound (block : Block) : Block :=
  let columns :=
    quarterRound (quarterRound (quarterRound (quarterRound block
      0 4 8 12) 1 5 9 13) 2 6 10 14) 3 7 11 15
  quarterRound (quarterRound (quarterRound (quarterRound columns
    0 5 10 15) 1 6 11 12) 2 7 8 13) 3 4 9 14

def constants : Vector UInt32 4 := #v[0x61707865, 0x3320646E, 0x79622D32, 0x6B206574]

/-- The constants, the key, the counter with its low word first, and two words that stay zero. -/
def startBlock (key : Key) (counter : UInt64) : Block :=
  constants ++ key ++ #v[counter.toUInt32, (counter >>> 32).toUInt32, 0, 0]

def keystreamBlock (key : Key) (counter : UInt64) : Block :=
  let start := startBlock key counter
  let mixed := Nat.repeat doubleRound 6 start
  start.zipWith (· + ·) mixed

/-! ## Keys from seeds -/

def advanceSeed (state : UInt64) : UInt64 :=
  state * 6364136223846793005 + 11634580027462260723

/-- The output function of the recurrence: its top bits say how far the middle ones are turned. -/
def seedWord (state : UInt64) : UInt32 :=
  rotateRight (((state >>> 18) ^^^ state) >>> 27).toUInt32 (state >>> 59).toUInt32

def Key.ofSeed (seed : UInt64) : Key :=
  Vector.ofFn fun index => seedWord (Nat.repeat advanceSeed (index.val + 1) seed)

end Polarity.Random
