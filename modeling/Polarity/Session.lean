import Polarity.Error
import Polarity.FileSystem

/-!
# Sessions

A session acts on a world: it reads and writes files, takes notes and prints
lines.  A failure ends the session but not the world, so what was written,
noted and printed before it remains.
-/

namespace Polarity

inductive Level where
  | debug
  | info
  | warn
  deriving DecidableEq, Repr

def Level.name : Level → String
  | .debug => "DEBUG"
  | .info => "INFO"
  | .warn => "WARN"

structure Note where
  level : Level
  text : String
  deriving DecidableEq, Repr

structure World where
  files : FileSystem
  notes : Array Note
  lines : Array String

def World.ofFiles (files : FileSystem) : World := ⟨files, #[], #[]⟩

abbrev Session := ExceptT Error (StateM World)

namespace Session

def run {α : Type} (session : Session α) (world : World) : Except Error α × World :=
  (ExceptT.run session) world

def note (level : Level) (text : String) : Session Unit :=
  modify fun world => { world with notes := world.notes.push ⟨level, text⟩ }

def debug (text : String) : Session Unit := note .debug text

def info (text : String) : Session Unit := note .info text

def warn (text : String) : Session Unit := note .warn text

def printLine (text : String) : Session Unit :=
  modify fun world => { world with lines := world.lines.push text }

def files : Session FileSystem := return (← get).files

def setFiles (files : FileSystem) : Session Unit := modify fun world => { world with files := files }

def fail {α : Type} (problem : FileProblem) : Session α := throw (.file problem)

end Session

end Polarity
