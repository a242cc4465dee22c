import Polarity.Corpus
import Polarity.Dataset.Split
import Polarity.Features
import Polarity.Training.Settings

/-!
# From a corpus to datasets

The vocabulary comes from the training documents.  All four pools are turned
into features, the training pools are split and the test pools mixed, with one
generator made from the split seed.
-/

namespace Polarity

open Polarity.Random

structure Prepared (α : Type) where
  vocabulary : Vocabulary
  training : Dataset α
  validation : Dataset α
  test : Dataset α

namespace Prepared

def buildVocabulary (documents : List Document) (size : Nat) : Session Vocabulary := do
  let all := Vocabulary.tally (documents.flatMap Document.words)
  let vocabulary := all.ranked.take size
  Session.info s!"Vocabulary built: kept {vocabulary.size} of {all.size} distinct tokens"
  return vocabulary

variable {α : Type} [Zero α] [One α]

/-- Every thousandth document is noted, from the first on. -/
def featurize (featurizer : Featurizer) (documents : List Document) : Session (Matrix α) := do
  let total := documents.length
  for place in List.range total do
    if place % 1000 = 0 then Session.debug s!"Featurized {place}/{total} documents"
  return featurizer.matrix documents

/-- A pool that is too small for its share is noted before the pools are cut. -/
def split (positive negative : Matrix α) (trainSize : Nat) (generator : Generator) :
    Session (Split α × Generator) := do
  let ((positive, negative), generator) ← Split.shufflePools positive negative generator
  let quota := Split.quota trainSize
  if positive.height < quota || negative.height < quota then
    Session.warn (s!"Requested {quota} training rows per class but pools hold " ++
      s!"{positive.height} positive / {negative.height} negative")
  let (split, generator) ← Split.cut positive negative trainSize generator
  let training := split.training.size
  let validation := split.validation.size
  Session.debug s!"Dataset split: {training} training, {validation} validation"
  return (split, generator)

def ofCorpus (corpus : Corpus) (settings : Settings) : Session (Prepared α) := do
  let vocabulary ← buildVocabulary corpus.training settings.vocabSize.toNat
  if vocabulary.isEmpty then
    Session.warn "Vocabulary is empty: every feature vector will be all zeros"
  let featurizer := Featurizer.ofVocabulary vocabulary
  let trainPositive ← featurize featurizer corpus.trainPositive
  let trainNegative ← featurize featurizer corpus.trainNegative
  let testPositive ← featurize featurizer corpus.testPositive
  let testNegative ← featurize featurizer corpus.testNegative
  let generator := Generator.ofSeed settings.splitSeed
  let (split, generator) ← split trainPositive trainNegative settings.trainSize.toNat generator
  let (test, _) ← Split.drawTest testPositive testNegative generator
  Session.info (s!"Prepared splits: {split.training.size} train, " ++
    s!"{split.validation.size} validation, {test.size} test ({vocabulary.size} features)")
  return ⟨vocabulary, split.training, split.validation, test⟩

end Prepared

end Polarity
