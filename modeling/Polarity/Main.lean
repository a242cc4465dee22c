import Polarity.CommandLine.Run

/-!
# The command

The command takes up the files that a run can see, runs, and puts down the files
that the run has changed.  All paths are those of files below the working
directory.
-/

namespace Polarity.CommandLine

def usage : String :=
  "Usage: polarity train " ++
    String.intercalate " " (Flag.all.map fun flag => s!"[--{flag.name} VALUE]")

def UsageError.message : UsageError → String
  | .help | .nothingToDo => usage
  | .version => "polarity 0.1.0"
  | .unknownCommand => "unknown command"
  | .unknownArgument => "unknown argument"
  | .badChoice => "a value is missing or is none of the choices"
  | .badNumber => "a value is not a number in range"
  | .repeatedFlag => "a flag is given twice"
  | .unwantedValue => "a flag takes no value"

def UsageError.exitCode : UsageError → UInt32
  | .help | .version => 0
  | _ => 2

def exitCode : Error → UInt32
  | .violation _ => 101
  | _ => 1

partial def takeUp (files : FileSystem) (path : String) : IO FileSystem := do
  try
    let target ← IO.FS.realPath path
    if ← target.isDir then
      let inside := (files.makeDirectories (Text.Utf8.ofString path)).1
      (← target.readDir).foldlM (fun files child => takeUp files (Path.join path child.fileName)) inside
    else if ← target.pathExists then
      let inside := (files.makeDirectories (Path.above (Text.Utf8.ofString path))).1
      let entry ← try pure (Entry.file (← IO.FS.readBinFile path)) catch _ => pure (.file .empty true)
      match inside.follow? (Text.Utf8.ofString path) with
      | some walk => return inside.put walk.place entry
      | none => return inside
    else
      return files
  catch _ => return files

def visibleFiles (call : Invocation) : IO FileSystem := do
  let files ← match call.config with
    | some path => takeUp .empty path
    | none => pure .empty
  match (Session.run (resolveSettings call) (.ofFiles files)).1 with
  | .ok settings => takeUp (← takeUp files settings.dataDir) settings.runDir
  | .error _ => return files

/-- Writes what is new or has changed at a path and below it. -/
partial def putDown (path : String) (before : Option Entry) : Entry → IO Unit
  | .file content _ => do
      let changed := match before with
        | some (.file old _) => unpack old != unpack content
        | _ => true
      if changed then IO.FS.writeBinFile path content
  | .directory children => do
      unless before.any Entry.isDirectory do IO.FS.createDirAll path
      for (name, child) in children do
        putDown (Path.join path (Text.Utf8.toStringLossy name)) (before >>= (·.get? [name])) child

def entropy : IO Random.Generator := do
  let bytes ← IO.getRandomBytes 8
  return .ofSeed (bytes.foldl (fun seed byte => seed * 256 + byte.toUInt64) 0)

def runOnDisk (call : Invocation) : IO UInt32 := do
  let before ← visibleFiles call
  let (outcome, world) := Session.run (run call (← entropy)) (.ofFiles before)
  putDown "" (some before.root) world.files.root
  for note in world.notes do
    if note.level ≠ .debug then IO.eprintln s!"{note.level.name} {note.text}"
  for line in world.lines do
    IO.println line
  match outcome with
  | .ok _ => return 0
  | .error error =>
      IO.eprintln s!"Error: {error.message}"
      return exitCode error

end Polarity.CommandLine

def main (arguments : List String) : IO UInt32 := do
  match Polarity.CommandLine.read ("polarity" :: arguments) with
  | .ok call => Polarity.CommandLine.runOnDisk call
  | .error error =>
      if error.exitCode = 0 then IO.println error.message else IO.eprintln error.message
      return error.exitCode
