import Polarity.Session

/-!
# Run directories

The directory that holds the settings and the metrics tables of a run is made
when it is first needed, with all directories above it.
-/

namespace Polarity.RunDirectory

def make (path : String) : Session Unit := do
  let (files, made) := (← Session.files).makeDirectories (Text.Utf8.ofString path)
  Session.setFiles files
  unless made do Session.fail (.createRunDirectory path)

end Polarity.RunDirectory
