import Polarity.Random.Keystream

/-!
# Generators

A generator is a place in a keystream.  Draws take the words of the stream in
order: one for a 32-bit word, two for a 64-bit word, the first of them low.
-/

namespace Polarity.Random

/-- `pending` are the words of the current block not yet drawn; `counter` is the next block. -/
structure Generator where
  key : Key
  counter : UInt64
  pending : List UInt32
  deriving DecidableEq, Repr

namespace Generator

def ofSeed (seed : UInt64) : Generator := ⟨Key.ofSeed seed, 0, []⟩

def nextWord (generator : Generator) : UInt32 × Generator :=
  match generator.pending with
  | word :: rest => (word, { generator with pending := rest })
  | [] =>
      let block := keystreamBlock generator.key generator.counter
      (block[0], ⟨generator.key, generator.counter + 1, block.toList.tail⟩)

def nextPair (generator : Generator) : UInt64 × Generator :=
  let (low, generator) := generator.nextWord
  let (high, generator) := generator.nextWord
  (high.toUInt64 <<< 32 ||| low.toUInt64, generator)

/-- A multiple of `2 ^ -53` in `[0, 1)`. -/
def nextUnit (generator : Generator) : Float × Generator :=
  let (word, generator) := generator.nextPair
  ((word >>> 11).toFloat / 9007199254740992.0, generator)

/-- A multiple of `2 ^ -52` in `[-0.5, 0.5)`. -/
def nextCentred (generator : Generator) : Float × Generator :=
  let (word, generator) := generator.nextPair
  ((word >>> 12).toFloat / 4503599627370496.0 - 0.5, generator)

def draws {α : Type} (draw : Generator → α × Generator) :
    Nat → Generator → List α → List α × Generator
  | 0, generator, drawn => (drawn.reverse, generator)
  | count + 1, generator, drawn =>
      let (value, generator) := draw generator
      draws draw count generator (value :: drawn)

def drawMany {α : Type} (draw : Generator → α × Generator) (count : Nat) (generator : Generator) :
    List α × Generator :=
  draws draw count generator []

theorem length_draws {α : Type} {draw : Generator → α × Generator} {count : Nat}
    {generator : Generator} {drawn : List α} :
    (draws draw count generator drawn).1.length = drawn.length + count := by
  induction count generalizing generator drawn with
  | zero => simp [draws]
  | succ count ih => rw [draws, ih, List.length_cons]; omega

theorem length_drawMany {α : Type} {draw : Generator → α × Generator} {count : Nat}
    {generator : Generator} : (generator.drawMany draw count).1.length = count := by
  simp [drawMany, length_draws]

/-! ## Whole numbers below a bound -/

/-- The largest low half of a product that is accepted: it keeps the draw uniform. -/
def acceptedZone (bits bound : Nat) : Nat := bound * Nat.pow 2 (bits - 1 - Nat.log2 bound) - 1

/--
Takes the high half of the product of a word and the bound, redrawing while the low
half lies beyond the zone.  Redrawing could go on for ever, but at least every other
word is accepted; here it ends after `redraws` refusals in a row, and the next word is
taken as it comes.
-/
def belowWithin {bits : Nat} (draw : Generator → BitVec bits × Generator) :
    Nat → Nat → Generator → Nat × Generator
  | 0, bound, generator =>
      let (word, generator) := draw generator
      (word.toNat * bound / Nat.pow 2 bits, generator)
  | redraws + 1, bound, generator =>
      let (word, generator) := draw generator
      let product := word.toNat * bound
      if product % Nat.pow 2 bits ≤ acceptedZone bits bound then
        (product / Nat.pow 2 bits, generator)
      else belowWithin draw redraws bound generator

/-- A bound of more than 32 bits takes two words a draw. -/
def below (bound : Nat) (generator : Generator) : Nat × Generator :=
  if bound < UInt32.size then belowWithin (Prod.map UInt32.toBitVec id ∘ nextWord) 4096 bound generator
  else belowWithin (Prod.map UInt64.toBitVec id ∘ nextPair) 4096 bound generator

private theorem high_half_lt {bits bound : Nat} (word : BitVec bits) (hbound : 0 < bound) :
    word.toNat * bound / Nat.pow 2 bits < bound := by
  have hwords : 0 < Nat.pow 2 bits := Nat.two_pow_pos bits
  rw [Nat.div_lt_iff_lt_mul hwords, Nat.mul_comm bound]
  exact Nat.mul_lt_mul_of_pos_right word.isLt hbound

private theorem belowWithin_lt {bits bound : Nat} (draw : Generator → BitVec bits × Generator)
    (redraws : Nat) (hbound : 0 < bound) (generator : Generator) :
    (belowWithin draw redraws bound generator).1 < bound := by
  induction redraws generalizing generator with
  | zero => exact high_half_lt _ hbound
  | succ redraws ih =>
      simp only [belowWithin]
      split
      · exact high_half_lt _ hbound
      · exact ih _

theorem below_lt {bound : Nat} (hbound : 0 < bound) (generator : Generator) :
    (generator.below bound).1 < bound := by
  unfold below
  split <;> exact belowWithin_lt _ _ hbound generator

end Generator

end Polarity.Random
