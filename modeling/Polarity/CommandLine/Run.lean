import Polarity.CommandLine.Flags
import Polarity.Training.Run

/-!
# Running the command

A file of settings replaces all other flags.  The outcome of the run on the test
set is printed at the end.
-/

namespace Polarity.CommandLine

open Polarity.Random

def resolveSettings (call : Invocation) : Session Settings := do
  match call.config with
  | some path =>
      Session.info s!"Loading training config from '{path}'"
      Settings.load path
  | none => return call.settings

def run (call : Invocation) (entropy : Generator) : Session Unit := do
  let settings ← resolveSettings call
  Session.info s!"Starting training on reviews in: {settings.dataDir}"
  let report ← settings.run entropy
  Session.printLine (
    s!"Training complete. Test accuracy: {Decimal.fixed 2 (report.testAccuracy * 100)}% " ++
    s!"(loss {Decimal.fixed 4 report.testLoss})")
  if let some epoch := report.bestEpoch then
    Session.printLine s!"Lowest validation loss at epoch {epoch}"

end Polarity.CommandLine
