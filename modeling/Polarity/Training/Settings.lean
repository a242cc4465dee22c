import Polarity.Json.Printer
import Polarity.Model.Classifier
import Polarity.Training.RunDirectory

/-!
# Settings of a training run

Settings come from flags or from a JSON file, in which every field may be left
out, and are saved beside the metrics of the run.
-/

namespace Polarity

structure Settings where
  dataDir : String
  runDir : String
  model : ModelKind
  batchSize : UInt64
  trainSize : UInt64
  vocabSize : UInt64
  learningRate : Float
  outputs : UInt64
  hiddenSizes : List UInt64
  epochs : UInt64
  splitSeed : UInt64
  /-- Without it the weights and the order of batches differ from run to run. -/
  batchSeed : Option UInt64
  deriving DecidableEq, Repr

namespace Settings

def default : Settings where
  dataDir := "data/aclImdb"
  runDir := "runs"
  model := .logistic
  batchSize := 20
  trainSize := 20000
  vocabSize := 2000
  learningRate := 0.1
  outputs := 1
  hiddenSizes := [20]
  epochs := 300
  splitSeed := 42
  batchSeed := none

def validate (settings : Settings) : Except Error Unit := do
  if settings.batchSize = 0 then throw (.settings .batchSize)
  if settings.vocabSize = 0 then throw (.settings .vocabularySize)
  if settings.outputs = 0 then throw (.settings .outputs)
  if 0 ∈ settings.hiddenSizes then throw (.settings (.hiddenWidths settings.hiddenSizes))
  if !settings.learningRate.isFinite || settings.learningRate < 0 then
    throw (.settings (.learningRate settings.learningRate))

/-! ## JSON -/

def fieldNames : List String :=
  ["data_dir", "run_dir", "model", "batch_size", "train_size", "vocab_size", "learning_rate",
    "n_outputs", "hidden_sizes", "epochs", "split_seed", "batch_seed"]

def toJson (settings : Settings) : Json.Value :=
  .record [
    ("data_dir", .ofText settings.dataDir),
    ("run_dir", .ofText settings.runDir),
    ("model", .ofText settings.model.name),
    ("batch_size", .ofUInt64 settings.batchSize),
    ("train_size", .ofUInt64 settings.trainSize),
    ("vocab_size", .ofUInt64 settings.vocabSize),
    ("learning_rate", .ofFloat settings.learningRate),
    ("n_outputs", .ofUInt64 settings.outputs),
    ("hidden_sizes", .ofList .ofUInt64 settings.hiddenSizes),
    ("epochs", .ofUInt64 settings.epochs),
    ("split_seed", .ofUInt64 settings.splitSeed),
    ("batch_seed", .ofOption .ofUInt64 settings.batchSeed)]

/-- The name of a kind, or an object whose only field is that name, with the value null. -/
def modelOfJson? : Json.Value → Option ModelKind
  | .string (some name) => ModelKind.ofName? name
  | .object [(some name, .null)] => ModelKind.ofName? name
  | _ => none

/-- A field that is given must be right; one that is not has its default. -/
def given {α : Type} (read? : Json.Value → Option α) (missing : α) : Option Json.Value → Option α
  | none => some missing
  | some value => read? value

def ofJson? (value : Json.Value) : Option Settings := do
  match ← value.fields? fieldNames with
  | [dataDir, runDir, model, batchSize, trainSize, vocabSize, learningRate, outputs, hiddenSizes,
      epochs, splitSeed, batchSeed] =>
      return {
        dataDir := ← given Json.Value.text? default.dataDir dataDir
        runDir := ← given Json.Value.text? default.runDir runDir
        model := ← given modelOfJson? default.model model
        batchSize := ← given Json.Value.uint64? default.batchSize batchSize
        trainSize := ← given Json.Value.uint64? default.trainSize trainSize
        vocabSize := ← given Json.Value.uint64? default.vocabSize vocabSize
        learningRate := ← given Json.Value.float? default.learningRate learningRate
        outputs := ← given Json.Value.uint64? default.outputs outputs
        hiddenSizes := ← given (Json.Value.list? Json.Value.uint64?) default.hiddenSizes hiddenSizes
        epochs := ← given Json.Value.uint64? default.epochs epochs
        splitSeed := ← given Json.Value.uint64? default.splitSeed splitSeed
        batchSeed := ← given (Json.Value.option? Json.Value.uint64?) default.batchSeed batchSeed }
  | _ => none

/-! ## Files -/

def load (path : String) : Session Settings := do
  match (← Session.files).read? (Text.Utf8.ofString path) >>= Text.Utf8.toString? with
  | none => Session.fail (.readSettings path)
  | some text =>
      match Json.Value.parse? text >>= ofJson? with
      | none => Session.fail (.invalidSettings path)
      | some settings => return settings

end Settings

structure SettingsStore where
  directory : String
  deriving DecidableEq, Repr

namespace SettingsStore

def path (store : SettingsStore) : String := Path.join store.directory "train_config.json"

def save (store : SettingsStore) (settings : Settings) : Session Unit := do
  RunDirectory.make store.directory
  match (← Session.files).write? (Text.Utf8.ofString store.path)
      (Text.Utf8.ofString settings.toJson.pretty) with
  | none => Session.fail (.writeSettings store.path)
  | some files =>
      Session.setFiles files
      Session.debug s!"Saved training config to '{store.path}'"

def load (store : SettingsStore) : Session Settings := Settings.load store.path

end SettingsStore

end Polarity
