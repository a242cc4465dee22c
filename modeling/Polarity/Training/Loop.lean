import Polarity.Dataset.Batches
import Polarity.Model.Classifier
import Polarity.Training.Metrics

/-!
# The training loop

An epoch fits the model to every batch and then evaluates it on the training
and the validation set.  The generator decides the order of the batches and
nothing else.
-/

namespace Polarity

open Polarity.Random

structure Trained (α : Type) where
  classifier : Classifier α
  history : List (Metrics α)
  generator : Generator

def historyRowBytes : Nat := 40

def paddedEpoch (epoch : Nat) : String :=
  let digits := toString epoch
  String.ofList (List.replicate (3 - digits.length) ' ') ++ digits

namespace Training

variable {α : Type} [Zero α] [One α] [Add α] [Sub α] [Mul α] [Div α] [Neg α] [NatCast α]
  [LT α] [DecidableLT α] [LE α] [DecidableLE α] [BEq α]

def fitBatches (numerics : Numerics α) (classifier : Classifier α) (batches : List (Dataset α)) :
    Except Error (Classifier α) :=
  batches.foldlM (fun classifier batch => classifier.fit numerics batch.features batch.labels)
    classifier

def measure (numerics : Numerics α) (epoch : Nat) (classifier : Classifier α)
    (training validation : Dataset α) : Except Error (Metrics α) := do
  let (trainLoss, trainAccuracy) ←
    classifier.evaluate numerics training.features training.labels
  let (valLoss, valAccuracy) ←
    classifier.evaluate numerics validation.features validation.labels
  return ⟨epoch, trainLoss, valLoss, trainAccuracy, valAccuracy⟩

def progressLine (numerics : Numerics α) (epochs : Nat) (metrics : Metrics α) : String :=
  let percent (value : α) := numerics.fixed 1 (value * ((100 : Nat) : α))
  s!"Epoch {paddedEpoch metrics.epoch}/{epochs}" ++
    s!" | train_loss={numerics.fixed 4 metrics.trainLoss}" ++
    s!" | val_loss={numerics.fixed 4 metrics.valLoss}" ++
    s!" | train_acc={percent metrics.trainAccuracy}%" ++
    s!" | val_acc={percent metrics.valAccuracy}%"

/-- Runs `left` more epochs, the last of which has the number `epochs`; `history` has its last row first. -/
def runEpochs (numerics : Numerics α) (validation : Dataset α) (table : Option MetricsTable)
    (epochs : Nat) :
    Nat → Classifier α → Batches α → Generator → List (Metrics α) → Session (Trained α)
  | 0, classifier, _, generator, history => return ⟨classifier, history.reverse, generator⟩
  | left + 1, classifier, batches, generator, history => do
      let (epoch, batches, generator) := batches.epoch generator
      let classifier ← fitBatches numerics classifier epoch.toList
      let metrics ← measure numerics (epochs - left) classifier batches.data validation
      Session.printLine (progressLine numerics epochs metrics)
      if let some table := table then table.log numerics metrics
      runEpochs numerics validation table epochs left classifier batches generator
        (metrics :: history)

/-- A history that cannot be addressed fails before the first epoch. -/
def run (numerics : Numerics α) (classifier : Classifier α) (training validation : Dataset α)
    (batchSize epochs : Nat) (generator : Generator) (table : Option MetricsTable) :
    Session (Trained α) := do
  let batches ← Batches.ofDataset training batchSize
  Session.info (s!"Training {classifier.name} on {training.size} rows " ++
    s!"({batches.count} batches of up to {batchSize}) for {epochs} epochs")
  if addressLimit < historyRowBytes * epochs then throw (.violation .capacity)
  let trained ←
    runEpochs numerics validation table epochs epochs classifier batches generator []
  Session.info "Training complete!"
  return trained

end Training

end Polarity
