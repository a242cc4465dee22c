import Polarity.Training.Loop
import Polarity.Training.Models
import Polarity.Training.Prepared

/-!
# A whole training run

Settings are checked, the corpus is loaded and prepared, the settings are saved,
a model is built and trained, and the model is evaluated on the test set.
-/

namespace Polarity

open Polarity.Random

structure Report where
  history : List (Metrics Float)
  bestEpoch : Option Nat
  testLoss : Float
  testAccuracy : Float
  deriving DecidableEq, Repr

namespace Settings

/-- `entropy` is the generator of a run without a batch seed. -/
def batchGenerator (settings : Settings) (entropy : Generator) : Generator :=
  match settings.batchSeed with
  | some seed => .ofSeed seed
  | none => entropy

def run (settings : Settings) (entropy : Generator) : Session Report := do
  settings.validate
  Session.info s!"Loading reviews from '{settings.dataDir}'"
  let corpus ← Corpus.load settings.dataDir
  Session.info (s!"Loaded {corpus.trainPositive.length} + {corpus.trainNegative.length} " ++
    s!"training and {corpus.testPositive.length} + {corpus.testNegative.length} test reviews")
  let prepared : Prepared Float ← Prepared.ofCorpus corpus settings
  SettingsStore.save ⟨settings.runDir⟩ settings
  let generator := settings.batchGenerator entropy
  let (classifier, generator) ← settings.makeClassifier prepared.vocabulary.size generator
  let table ← MetricsTable.start settings.runDir classifier.name
  let trained ← Training.run Numerics.double classifier prepared.training prepared.validation
    settings.batchSize.toNat settings.epochs.toNat generator (some table)
  let (testLoss, testAccuracy) ← trained.classifier.evaluate Numerics.double
    prepared.test.features prepared.test.labels
  Session.info (s!"{classifier.name} test accuracy: {Decimal.fixed 2 (testAccuracy * 100)}% " ++
    s!"(loss {Decimal.fixed 4 testLoss})")
  let best := Metrics.best? Numerics.double.infinity trained.history
  if let some metrics := best then
    Session.info
      s!"Best validation loss {Decimal.fixed 4 metrics.valLoss} at epoch {metrics.epoch}"
  return ⟨trained.history, best.map (·.epoch), testLoss, testAccuracy⟩

end Settings

end Polarity
