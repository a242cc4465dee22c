import Polarity.Decimal.Fixed

/-!
# The numbers that models compute with

Models are written over any scalars with the usual operations.  What lies beyond
those operations is collected in a `Numerics`: the sigmoid and the logarithm,
the distance that the network keeps from zero and one, a value above every
loss, and the text of a scalar.  `Numerics.double` is the one that runs.
-/

namespace Polarity

instance natCastFloat : NatCast Float := ⟨Float.ofNat⟩

structure Numerics (α : Type) where
  sigmoid : α → α
  log : α → α
  /-- Activations of a network stay in `[margin, 1 - margin]`. -/
  margin : α
  infinity : α
  fixed : Nat → α → String

namespace Numerics

variable {α : Type}

def sigmoidSlope [One α] [Sub α] [Mul α] (numerics : Numerics α) (z : α) : α :=
  let s := numerics.sigmoid z
  s * (1 - s)

/-- The nearest value in an interval; a value that compares with nothing is kept. -/
def clamp [LT α] [DecidableLT α] (low high value : α) : α :=
  if value < low then low else if high < value then high else value

def activate [One α] [Sub α] [LT α] [DecidableLT α] (numerics : Numerics α) (z : α) : α :=
  clamp numerics.margin (1 - numerics.margin) (numerics.sigmoid z)

def double : Numerics Float where
  sigmoid z := 1.0 / (1.0 + Float.exp (-z))
  log := Float.log
  margin := 1e-13
  infinity := 1.0 / 0.0
  fixed := Decimal.fixed

end Numerics

end Polarity
