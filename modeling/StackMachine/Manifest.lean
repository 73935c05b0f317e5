import StackMachine.Host.Path
import StackMachine.Time.Duration

/-!
# Manifests

A manifest configures the machine, the server, the run history and the log. Relative paths in it
are seen from the directory it was found in.
-/

namespace StackMachine

open Text

/-- A configuration. -/
structure Manifest where
  debug : Bool := false
  /-- The most steps a run may take; zero is no limit. -/
  maxSteps : Int64 := 1000000
  /-- Where the server listens. -/
  addr : Bytes := utf8 ":4567"
  /-- How long a single run on the server may take. -/
  timeout : Duration := ⟨10000000000⟩
  historyEnabled : Bool := true
  /-- The file of the run history. -/
  historyFile : Bytes := utf8 ".stackvm/history.db"
  verbosity : Int64 := 1
  /-- The file that the log goes to, empty for the standard error stream. -/
  logFile : Bytes := []
  /-- The directory the manifest was found in, empty when there is none. -/
  dir : Bytes := []
  deriving DecidableEq, Repr

namespace Manifest

/-- A path of the manifest, seen from the manifest's directory when it is relative. -/
def resolve (m : Manifest) (p : Bytes) : Bytes :=
  if Path.isAbsolute p ∨ m.dir = [] then p else Path.join [m.dir, p]

/-- Where the run history is kept. An empty path stays empty. -/
def historyPath (m : Manifest) : Bytes := if m.historyFile = [] then [] else m.resolve m.historyFile

/-- The file that the log goes to, if any. -/
def logPath? (m : Manifest) : Option Bytes :=
  if m.logFile = [] then none else some (m.resolve m.logFile)

end Manifest

end StackMachine
