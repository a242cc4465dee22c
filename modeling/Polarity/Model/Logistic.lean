import Polarity.Dataset
import Polarity.Model.Loss

/-!
# Logistic regression

The probability of a row is the sigmoid of a weighted sum of its features.  A
step goes down the gradient of the mean cross-entropy of a batch.
-/

namespace Polarity

open Polarity.Random

/--
The differences of entries in the same place.  An operand of one entry is spread
over the other, whichever of the two it is.
-/
def differences {α : Type} [Sub α] (left right : List α) : Except Error (List α) :=
  if left.length = right.length then .ok (List.zipWith (· - ·) left right)
  else match left, right with
    | [single], _ => .ok (right.map (single - ·))
    | _, [single] => .ok (left.map (· - single))
    | _, _ => .error (.violation .shape)

structure LogisticConfig (α : Type) where
  inputSize : Nat
  learningRate : α
  deriving DecidableEq, Repr

structure Logistic (α : Type) where
  config : LogisticConfig α
  weights : List α
  bias : α

namespace Logistic

/-- Every weight and then the bias is a unit draw less one half. -/
def new (config : LogisticConfig Float) (generator : Generator) :
    Except Error (Logistic Float × Generator) := do
  requireRoom [config.inputSize]
  let (weights, generator) := generator.drawMany Generator.nextUnit config.inputSize
  let (bias, generator) := generator.nextUnit
  return (⟨config, weights.map (· - 0.5), bias - 0.5⟩, generator)

variable {α : Type}

def ofParameters (config : LogisticConfig α) (weights : List α) (bias : α) :
    Except Error (Logistic α) :=
  if weights.length = config.inputSize then .ok ⟨config, weights, bias⟩
  else .error (.violation .weightLength)

variable [Zero α] [One α] [Add α] [Sub α] [Mul α] [Div α] [Neg α] [NatCast α]

def predict (numerics : Numerics α) (model : Logistic α) (x : Matrix α) :
    Except Error (List α) := do
  let sums ← x.mulVec model.weights
  return sums.map fun sum => numerics.sigmoid (sum + model.bias)

/-- A batch without rows changes nothing, whatever its width and labels. -/
def fit (numerics : Numerics α) (model : Logistic α) (x : Matrix α) (y : List α) :
    Except Error (Logistic α) := do
  if x.height = 0 then return model
  let probabilities ← model.predict numerics x
  let residuals ← differences probabilities y
  let sums ← x.transpose.mulVec residuals
  let rate := -model.config.learningRate
  return { model with
    weights := List.zipWith (fun weight sum => weight + rate * (sum / (x.height : α)))
      model.weights sums
    bias := model.bias - model.config.learningRate * mean residuals }

end Logistic

end Polarity
