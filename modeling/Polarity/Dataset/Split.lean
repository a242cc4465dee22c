import Polarity.Dataset

/-!
# Training, validation and test sets

Half of the training rows come from each class.  Both pools are shuffled and
cut; the first rows train, the others validate, and each of the two sets is
shuffled again.  A pool that is too small gives all it has.
-/

namespace Polarity

open Polarity.Random

structure Split (α : Type) where
  training : Dataset α
  validation : Dataset α

/-- The rows in a random order; there must be room for the order. -/
def Matrix.shuffled {α : Type} (generator : Generator) (matrix : Matrix α) :
    Except Error (Matrix α × Generator) := do
  requireRoom [matrix.height]
  let order := shuffle (List.range matrix.height) generator
  return (matrix.rowsAt order.1 fun _ => lt_of_mem_shuffle_range, order.2)

namespace Split

def quota (trainSize : Nat) : Nat := trainSize / 2

variable {α : Type}

def shufflePools (positive negative : Matrix α) (generator : Generator) :
    Except Error ((Matrix α × Matrix α) × Generator) := do
  let (positive, generator) ← positive.shuffled generator
  let (negative, generator) ← negative.shuffled generator
  return ((positive, negative), generator)

variable [Zero α] [One α]

def cut (positive negative : Matrix α) (trainSize : Nat) (generator : Generator) :
    Except Error (Split α × Generator) := do
  let positiveCut := min (quota trainSize) positive.height
  let negativeCut := min (quota trainSize) negative.height
  let training ← Dataset.ofPools (positive.take positiveCut) (negative.take negativeCut)
  let (training, generator) := training.shuffled generator
  let validation ← Dataset.ofPools (positive.drop positiveCut) (negative.drop negativeCut)
  let (validation, generator) := validation.shuffled generator
  return (⟨training, validation⟩, generator)

def drawTest (positive negative : Matrix α) (generator : Generator) :
    Except Error (Dataset α × Generator) := do
  let test ← Dataset.ofPools positive negative
  return test.shuffled generator

end Split

end Polarity
