import Polarity.Decimal.Literal
import Polarity.Training.Settings

/-!
# Flags

Every setting has a flag, given as `--name value` or `--name=value`, and
`--config` names a file of settings.  A flag may be given once; only the widths
of hidden layers may be given several times, and then add up.

The value of a flag is looked at when the next known flag comes or the
arguments end.  An unknown flag or a stray word is refused as soon as it is met.
-/

namespace Polarity.CommandLine

/-- Why arguments are not a run; asking for help or the version is one of the reasons. -/
inductive UsageError where
  | help
  | version
  | nothingToDo
  | unknownCommand
  | unknownArgument
  | badChoice
  | badNumber
  | repeatedFlag
  | unwantedValue
  deriving DecidableEq, Repr

inductive Flag where
  | config
  | dataDir
  | runDir
  | model
  | batchSize
  | trainSize
  | vocabSize
  | learningRate
  | outputs
  | hiddenSizes
  | epochs
  | splitSeed
  | batchSeed
  deriving DecidableEq, Repr

namespace Flag

def all : List Flag :=
  [.config, .dataDir, .runDir, .model, .batchSize, .trainSize, .vocabSize, .learningRate, .outputs,
    .hiddenSizes, .epochs, .splitSeed, .batchSeed]

def name : Flag → String
  | .config => "config"
  | .dataDir => "data-dir"
  | .runDir => "run-dir"
  | .model => "model"
  | .batchSize => "batch-size"
  | .trainSize => "train-size"
  | .vocabSize => "vocab-size"
  | .learningRate => "learning-rate"
  | .outputs => "n-outputs"
  | .hiddenSizes => "hidden-sizes"
  | .epochs => "epochs"
  | .splitSeed => "split-seed"
  | .batchSeed => "batch-seed"

def ofName? (name : String) : Option Flag := all.find? fun flag => flag.name == name

end Flag

structure Flags where
  config : Option String := none
  dataDir : Option String := none
  runDir : Option String := none
  model : Option ModelKind := none
  batchSize : Option UInt64 := none
  trainSize : Option UInt64 := none
  vocabSize : Option UInt64 := none
  learningRate : Option Float := none
  outputs : Option UInt64 := none
  hiddenSizes : Option (List UInt64) := none
  epochs : Option UInt64 := none
  splitSeed : Option UInt64 := none
  batchSeed : Option UInt64 := none
  deriving DecidableEq, Repr

/-! ## Values -/

def readNumber (text : String) : Except UsageError UInt64 :=
  match Decimal.readUInt64? text.toList with
  | some number => .ok number
  | none => .error .badNumber

def readFloat (text : String) : Except UsageError Float :=
  match Decimal.read? text.toList with
  | some value => .ok value
  | none => .error .badNumber

def readModel (text : String) : Except UsageError ModelKind :=
  match ModelKind.ofName? text with
  | some model => .ok model
  | none => .error .badChoice

def readNumbers (text : String) : Except UsageError (List UInt64) :=
  (text.toList.splitOnP (· == ',')).mapM fun piece => readNumber (String.ofList piece)

/-- A flag that is there already is refused before its new value is looked at. -/
def once {α : Type} (old : Option α) (read : String → Except UsageError α) (text : String) :
    Except UsageError (Option α) :=
  if old.isSome then .error .repeatedFlag else some <$> read text

def Flags.assign (flags : Flags) (flag : Flag) (text : String) : Except UsageError Flags :=
  match flag with
  | .config => return { flags with config := ← once flags.config pure text }
  | .dataDir => return { flags with dataDir := ← once flags.dataDir pure text }
  | .runDir => return { flags with runDir := ← once flags.runDir pure text }
  | .model => return { flags with model := ← once flags.model readModel text }
  | .batchSize => return { flags with batchSize := ← once flags.batchSize readNumber text }
  | .trainSize => return { flags with trainSize := ← once flags.trainSize readNumber text }
  | .vocabSize => return { flags with vocabSize := ← once flags.vocabSize readNumber text }
  | .learningRate => return { flags with learningRate := ← once flags.learningRate readFloat text }
  | .outputs => return { flags with outputs := ← once flags.outputs readNumber text }
  | .hiddenSizes =>
      return { flags with hiddenSizes := some (flags.hiddenSizes.getD [] ++ (← readNumbers text)) }
  | .epochs => return { flags with epochs := ← once flags.epochs readNumber text }
  | .splitSeed => return { flags with splitSeed := ← once flags.splitSeed readNumber text }
  | .batchSeed => return { flags with batchSeed := ← once flags.batchSeed readNumber text }

/-! ## Defaults -/

structure Invocation where
  config : Option String
  dataDir : String
  runDir : String
  model : ModelKind
  batchSize : UInt64
  trainSize : UInt64
  vocabSize : UInt64
  learningRate : Float
  outputs : UInt64
  hiddenSizes : List UInt64
  epochs : UInt64
  splitSeed : UInt64
  batchSeed : Option UInt64
  deriving DecidableEq, Repr

/-- What was given, or else what the default text is read as. -/
def orDefault {α : Type} (given : Option α) (read : String → Except UsageError α) (text : String) :
    Except UsageError α :=
  match given with
  | some value => .ok value
  | none => read text

def Flags.invocation (flags : Flags) : Except UsageError Invocation :=
  return {
    config := flags.config
    dataDir := ← orDefault flags.dataDir pure "data/aclImdb"
    runDir := ← orDefault flags.runDir pure "runs"
    model := ← orDefault flags.model readModel "logistic"
    batchSize := ← orDefault flags.batchSize readNumber "20"
    trainSize := ← orDefault flags.trainSize readNumber "20000"
    vocabSize := ← orDefault flags.vocabSize readNumber "2000"
    learningRate := ← orDefault flags.learningRate readFloat "0.1"
    outputs := ← orDefault flags.outputs readNumber "1"
    hiddenSizes := ← orDefault flags.hiddenSizes readNumbers "20"
    epochs := ← orDefault flags.epochs readNumber "300"
    splitSeed := ← orDefault flags.splitSeed readNumber "42"
    batchSeed := flags.batchSeed }

def Invocation.settings (call : Invocation) : Settings where
  dataDir := call.dataDir
  runDir := call.runDir
  model := call.model
  batchSize := call.batchSize
  trainSize := call.trainSize
  vocabSize := call.vocabSize
  learningRate := call.learningRate
  outputs := call.outputs
  hiddenSizes := call.hiddenSizes
  epochs := call.epochs
  splitSeed := call.splitSeed
  batchSeed := call.batchSeed

/-! ## Arguments -/

inductive Argument where
  | word (text : String)
  /-- Two dashes on their own: only words follow. -/
  | wordsOnly
  | long (name : String) (value : Option String)
  | short (letter : Char)
  deriving DecidableEq, Repr

def Argument.ofString (text : String) : Argument :=
  match text.toList with
  | ['-', '-'] => .wordsOnly
  | '-' :: '-' :: rest =>
      let name := String.ofList (rest.takeWhile (· != '='))
      match rest.dropWhile (· != '=') with
      | [] => .long name none
      | _ :: value => .long name (some (String.ofList value))
  | '-' :: letter :: _ => .short letter
  | _ => .word text

/-- A flag whose value is still to be read or to be looked at. -/
structure Pending where
  flag : Flag
  value : Option String
  deriving DecidableEq, Repr

def Flags.settle (flags : Flags) : Option Pending → Except UsageError Flags
  | none => .ok flags
  | some ⟨_, none⟩ => .error .badChoice
  | some ⟨flag, some text⟩ => flags.assign flag text

def readFlags (flags : Flags) (pending : Option Pending) : List String → Except UsageError Flags
  | [] => flags.settle pending
  | text :: rest =>
      match Argument.ofString text with
      | .wordsOnly => if rest = [] then flags.settle pending else .error .unknownArgument
      | .short letter => do
          if letter ≠ 'h' then .error .unknownArgument
          let _ ← flags.settle pending
          .error .help
      | .long name value =>
          if name = "help" then
            match value with
            | some _ => .error .unwantedValue
            | none => do
                let _ ← flags.settle pending
                .error .help
          else
            match Flag.ofName? name with
            | none => .error .unknownArgument
            | some flag => do
                let flags ← flags.settle pending
                match value with
                | some value =>
                    let flags ← flags.assign flag value
                    readFlags flags none rest
                | none => readFlags flags (some ⟨flag, none⟩) rest
      | .word text =>
          match pending with
          | some ⟨flag, none⟩ => readFlags flags (some ⟨flag, some text⟩) rest
          | _ => .error .unknownArgument

def commands : List String := ["train", "help"]

def readHelp : List String → UsageError
  | [] => .help
  | [command] => if command ∈ commands then .help else .unknownCommand
  | _ => .unknownCommand

def readCommand : List String → Except UsageError Invocation
  | [] => .error .nothingToDo
  | text :: rest =>
      if text = "train" then do
        let flags ← readFlags {} none rest
        flags.invocation
      else if text = "help" then .error (readHelp rest)
      else .error <| match Argument.ofString text, rest with
        | .wordsOnly, [] => .nothingToDo
        | .wordsOnly, word :: _ => if word ∈ commands then .unknownArgument else .unknownCommand
        | .long "help" none, _ => .help
        | .long "help" (some _), _ => .unwantedValue
        | .long "version" none, _ => .version
        | .long "version" (some _), _ => .unwantedValue
        | .long _ _, _ => .unknownArgument
        | .short letter, _ =>
            if letter = 'h' then .help else if letter = 'V' then .version else .unknownArgument
        | .word _, _ => .unknownCommand

/-- Arguments begin with the name of the program, which does not matter. -/
def read (arguments : List String) : Except UsageError Invocation := readCommand arguments.tail

end Polarity.CommandLine
