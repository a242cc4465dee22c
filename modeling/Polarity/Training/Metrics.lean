import Polarity.Json.Printer
import Polarity.Model.Numerics
import Polarity.Training.RunDirectory

/-!
# Metrics

Every epoch ends with one row of metrics.  Rows are kept in a history and, if
there is a metrics table, appended to it as lines of comma-separated text.
-/

namespace Polarity

structure Metrics (α : Type) where
  epoch : Nat
  trainLoss : α
  valLoss : α
  trainAccuracy : α
  valAccuracy : α
  deriving DecidableEq, Repr

namespace Metrics

variable {α : Type}

section Choice

variable [LT α] [DecidableLT α]

def improves (best : α) (metrics : Metrics α) : Bool := decide (metrics.valLoss < best)

/-- Keeps a row unless the next one is strictly better; before the first row, `ceiling` is to be beaten. -/
def better (ceiling : α) (best : Option (Metrics α)) (next : Metrics α) : Option (Metrics α) :=
  if next.improves ((best.map valLoss).getD ceiling) then some next else best

def best? (ceiling : α) (history : List (Metrics α)) : Option (Metrics α) :=
  history.foldl (better ceiling) none

end Choice

def line (numerics : Numerics α) (metrics : Metrics α) : String :=
  let values := [metrics.trainLoss, metrics.valLoss, metrics.trainAccuracy, metrics.valAccuracy]
  String.intercalate "," (toString metrics.epoch :: values.map (numerics.fixed 6)) ++ "\n"

def fieldNames : List String := ["epoch", "train_loss", "val_loss", "train_acc", "val_acc"]

def toJson (metrics : Metrics Float) : Json.Value :=
  .record [
    ("epoch", .ofNat metrics.epoch),
    ("train_loss", .ofFloat metrics.trainLoss),
    ("val_loss", .ofFloat metrics.valLoss),
    ("train_acc", .ofFloat metrics.trainAccuracy),
    ("val_acc", .ofFloat metrics.valAccuracy)]

def ofJson? (value : Json.Value) : Option (Metrics Float) := do
  match ← value.fields? fieldNames with
  | [some epoch, some trainLoss, some valLoss, some trainAccuracy, some valAccuracy] =>
      return {
        epoch := ← epoch.nat?
        trainLoss := ← trainLoss.float?
        valLoss := ← valLoss.float?
        trainAccuracy := ← trainAccuracy.float?
        valAccuracy := ← valAccuracy.float? }
  | _ => none

end Metrics

/-! ## Tables on disk -/

structure MetricsTable where
  path : String
  deriving DecidableEq, Repr

namespace MetricsTable

def header : String := "epoch,train_loss,val_loss,train_acc,val_acc\n"

def pathIn (directory model : String) : String := Path.join directory (model ++ "_metrics.csv")

/-- A table that is there is left as it is; a new one begins with the header. -/
def start (directory model : String) : Session MetricsTable := do
  RunDirectory.make directory
  let path := pathIn directory model
  let files ← Session.files
  unless files.exists? (Text.Utf8.ofString path) do
    match files.write? (Text.Utf8.ofString path) (Text.Utf8.ofString header) with
    | none => Session.fail (.createTable path)
    | some files =>
        Session.setFiles files
        Session.debug s!"Created metrics CSV: '{path}'"
  return ⟨path⟩

def log {α : Type} (numerics : Numerics α) (table : MetricsTable) (metrics : Metrics α) :
    Session Unit := do
  match (← Session.files).append? (Text.Utf8.ofString table.path)
      (Text.Utf8.ofString (metrics.line numerics)) with
  | none => Session.fail (.openTable table.path)
  | some files =>
      Session.setFiles files
      let trainLoss := numerics.fixed 4 metrics.trainLoss
      let valLoss := numerics.fixed 4 metrics.valLoss
      Session.debug
        s!"Logged epoch {metrics.epoch} metrics: train_loss={trainLoss}, val_loss={valLoss}"

end MetricsTable

end Polarity
