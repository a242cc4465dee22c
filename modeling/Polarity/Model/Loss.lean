import Polarity.Matrix
import Polarity.Model.Numerics

/-!
# Loss and accuracy

Both compare labels with the probabilities that a model gives to label one.
-/

namespace Polarity

variable {α : Type} [Zero α] [One α] [Add α] [Sub α] [Mul α] [Div α] [Neg α] [NatCast α]

def crossEntropy (numerics : Numerics α) (labels probabilities : List α) : Except Error α :=
  if labels.length = probabilities.length then
    .ok (-mean (List.zipWith (fun label probability =>
      label * numerics.log probability + (1 - label) * numerics.log (1 - probability))
      labels probabilities))
  else
    .error (.violation .shape)

def predictedLabel [LE α] [DecidableLE α] (probability : α) : α :=
  if 1 / (1 + 1) ≤ probability then 1 else 0

/-- The labels predicted right, as a part of all labels; zero if there are no labels. -/
def accuracy [LE α] [DecidableLE α] [BEq α] (labels probabilities : List α) : α :=
  if labels.isEmpty then 0
  else
    let hits := (labels.zip probabilities).countP fun (label, probability) =>
      predictedLabel probability == label
    (hits : α) / (labels.length : α)

end Polarity
