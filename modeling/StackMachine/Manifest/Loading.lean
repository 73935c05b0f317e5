import StackMachine.Manifest.Decode
import StackMachine.History.Opening

/-!
# Finding and loading manifests

A manifest lies in a file `stackvm.toml`. `find` looks for it in a directory and then in those above
it, and the nearest one counts, whether or not it can be read.
-/

namespace StackMachine.Manifest

open Text

/-- The name under which manifests are looked for. -/
def fileName : Bytes := utf8 "stackvm.toml"

/-- Why a manifest could not be loaded from a path. -/
inductive LoadError where
  | unreadable (path : Bytes) (e : PathError)
  | undecodable (path : Bytes) (e : DecodeError)
  | negativeLimit (path : Bytes)
  deriving DecidableEq, Repr

/-- The wording of a manifest that could not be loaded. -/
def LoadError.message : LoadError → Bytes
  | .unreadable path e => utf8 "cannot read " ++ path ++ utf8 ": " ++ e.message
  | .undecodable path e => utf8 "parse error in " ++ path ++ utf8 ": " ++ e.message
  | .negativeLimit path => path ++ utf8 ": vm.max-steps must not be negative"

/-- The manifest in a file. -/
def loadFile (fs : FileSystem) (path : Bytes) : Except LoadError Manifest := do
  let content ← (fs.read path).mapError (.unreadable path)
  let m ← (decode (History.contentBytes content)).mapError (.undecodable path)
  if m.maxSteps < 0 then .error (.negativeLimit path)
  else .ok { m with dir := Path.absolute fs.cwdPath (Path.dir path) }

/-- The manifest in a directory. -/
def load (fs : FileSystem) (dir : Bytes) : Except LoadError Manifest :=
  loadFile fs (Path.join [dir, fileName])

/-- The first of some directories that holds a manifest file. -/
def nearest? (fs : FileSystem) (dirs : List Bytes) : Option Bytes :=
  dirs.find? fun dir => fs.present (Path.join [dir, fileName])

/-- A directory given by an absolute path and those above it, the nearest first. Each is shorter
than the one before, so the length of the path is fuel enough. -/
def upward : (fuel : Nat) → Bytes → List Bytes
  | 0, dir => [dir]
  | fuel + 1, dir => if Path.dir dir = dir then [dir] else dir :: upward fuel (Path.dir dir)

/-- The manifest found from a directory, or nothing when there is none. -/
def find (fs : FileSystem) (start : Bytes) : Except LoadError (Option Manifest) :=
  let dir := Path.absolute fs.cwdPath start
  match nearest? fs (upward dir.length dir) with
  | none => .ok none
  | some dir => (load fs dir).map some

end StackMachine.Manifest
