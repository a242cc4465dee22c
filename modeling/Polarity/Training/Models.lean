import Polarity.Model.Classifier
import Polarity.Training.Settings

/-!
# Making models

The model that settings ask for, for features of a given width.
-/

namespace Polarity

open Polarity.Random

def Network.make (config : NetworkConfig Float) (generator : Generator) :
    Session (Network Float × Generator) := do
  let made ← Network.new config generator
  Session.debug s!"MLP initialised with layer widths {bracketed config.widths}"
  return made

namespace Settings

def networkConfig (settings : Settings) (inputSize : Nat) : NetworkConfig Float where
  inputSize := inputSize
  hiddenSizes := settings.hiddenSizes.map UInt64.toNat
  outputs := settings.outputs.toNat
  learningRate := settings.learningRate

def logisticConfig (settings : Settings) (inputSize : Nat) : LogisticConfig Float :=
  ⟨inputSize, settings.learningRate⟩

def makeClassifier (settings : Settings) (inputSize : Nat) (generator : Generator) :
    Session (Classifier Float × Generator) := do
  match settings.model with
  | .logistic =>
      let (model, generator) ← Logistic.new (settings.logisticConfig inputSize) generator
      return (.logistic model, generator)
  | .network =>
      let (model, generator) ← Network.make (settings.networkConfig inputSize) generator
      return (.network model, generator)

end Settings

/-! ## JSON of model settings -/

def LogisticConfig.toJson (config : LogisticConfig Float) : Json.Value :=
  .record [
    ("input_size", .ofNat config.inputSize),
    ("learning_rate", .ofFloat config.learningRate)]

def LogisticConfig.ofJson? (value : Json.Value) : Option (LogisticConfig Float) := do
  match ← value.fields? ["input_size", "learning_rate"] with
  | [some inputSize, some learningRate] => return ⟨← inputSize.nat?, ← learningRate.float?⟩
  | _ => none

def NetworkConfig.toJson (config : NetworkConfig Float) : Json.Value :=
  .record [
    ("input_size", .ofNat config.inputSize),
    ("hidden_sizes", .ofList .ofNat config.hiddenSizes),
    ("n_outputs", .ofNat config.outputs),
    ("learning_rate", .ofFloat config.learningRate)]

def NetworkConfig.ofJson? (value : Json.Value) : Option (NetworkConfig Float) := do
  match ← value.fields? ["input_size", "hidden_sizes", "n_outputs", "learning_rate"] with
  | [some inputSize, some hiddenSizes, some outputs, some learningRate] =>
      return ⟨← inputSize.nat?, ← hiddenSizes.list? Json.Value.nat?, ← outputs.nat?,
        ← learningRate.float?⟩
  | _ => none

end Polarity
