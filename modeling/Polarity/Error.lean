import Polarity.Decimal.Shortest

/-!
# What can go wrong

An `Error` is a cause.  Its wording stands in one place, `Error.message`.
Violations are broken promises between caller and operation, such as operands
whose shapes do not fit; all other errors come from the user's data, settings or
files.
-/

namespace Polarity

inductive Violation where
  /-- Operands of a matrix operation do not fit. -/
  | shape
  /-- A row is asked for that does not exist. -/
  | index
  /-- More memory is asked for than can be addressed. -/
  | capacity
  | noOutputUnit
  | weightLength
  | poolWidth
  deriving DecidableEq, Repr

inductive SettingsProblem where
  | batchSize
  | vocabularySize
  | outputs
  | hiddenWidths (widths : List UInt64)
  | learningRate (value : Float)
  deriving DecidableEq, Repr

/-- A step on the file system that failed, with the path as the user gave it. -/
inductive FileProblem where
  | readDirectory (path : String)
  | readFile (path : String)
  | createRunDirectory (path : String)
  | createTable (path : String)
  | openTable (path : String)
  | writeSettings (path : String)
  | readSettings (path : String)
  | invalidSettings (path : String)
  deriving DecidableEq, Repr

inductive Error where
  | sizeMismatch (features labels : Nat)
  | zeroBatchSize
  | settings (problem : SettingsProblem)
  | file (problem : FileProblem)
  | violation (violation : Violation)
  deriving DecidableEq, Repr

def bracketed (numbers : List Nat) : String :=
  "[" ++ String.intercalate ", " (numbers.map toString) ++ "]"

/-- The wording of a violation; those of the matrix operations have none of their own. -/
def Violation.message? : Violation → Option String
  | .shape => none
  | .index => none
  | .capacity => none
  | .noOutputUnit => some "an MLP needs at least one output unit"
  | .weightLength => some "weight length must equal input_size"
  | .poolWidth => some "positive and negative pools must share a feature width"

def SettingsProblem.message : SettingsProblem → String
  | .batchSize => "batch_size must be at least 1"
  | .vocabularySize => "vocab_size must be at least 1"
  | .outputs => "n_outputs must be at least 1"
  | .hiddenWidths widths =>
      "hidden layer widths must be at least 1, got " ++ bracketed (widths.map UInt64.toNat)
  | .learningRate value =>
      "learning_rate must be a finite non-negative number, got " ++ Decimal.plain value

def FileProblem.message : FileProblem → String
  | .readDirectory path => s!"Cannot read directory '{path}'"
  | .readFile path => s!"Cannot read '{path}'"
  | .createRunDirectory path => s!"Cannot create run directory '{path}'"
  | .createTable path => s!"Cannot create '{path}'"
  | .openTable path => s!"Cannot open '{path}'"
  | .writeSettings path => s!"Cannot write config to '{path}'"
  | .readSettings path => s!"Cannot read config from '{path}'"
  | .invalidSettings path => s!"Invalid training config in '{path}'"

def Error.message : Error → String
  | .sizeMismatch features labels =>
      s!"Number of samples in features ({features}) and labels ({labels}) differs"
  | .zeroBatchSize => "Batch size must be at least 1"
  | .settings problem => problem.message
  | .file problem => problem.message
  | .violation broken => broken.message?.getD "operands do not fit"

end Polarity
