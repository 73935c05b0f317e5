import Std.Time
import StackMachine.Cli.Needs

/-!
# The program

Fetches what a command line needs, carries it out, and writes what it leaves behind.
-/

open StackMachine

namespace StackMachine.Program

/-- The bytes of an array. -/
def bytes (a : ByteArray) : Bytes := a.toList

/-- The array of some bytes. -/
def array (b : Bytes) : ByteArray := ⟨b.toArray⟩

/-- A path as a string. Bytes that are not UTF-8 name nothing here. -/
def pathString (p : Bytes) : String := (Text.toString? p).getD ""

/-- The content of a file. -/
def contentOf (t : Bytes) : Content :=
  match History.Archive.read? t with
  | some log => .runs log
  | none => .text t

/-- Adds what is on disk at a path, unless it is known already. -/
def fetch (fs : FileSystem) (p : Bytes) : IO FileSystem := do
  let whole := Path.absolute fs.cwdPath p
  let place := Path.cleanParts whole
  let onDisk := (← IO.currentDir) / pathString whole
  if fs.occupied place || !(← onDisk.pathExists) then return fs
  if ← onDisk.isDir then return { fs with dirs := place :: fs.dirs }
  return fs.put place (contentOf (bytes (← IO.FS.readBinFile onDisk)))

/-- Writes the files that a command has changed. -/
def writeBack (old new : FileSystem) : IO Unit := do
  for (place, content) in new.files do
    if old.file? place ≠ some content then
      IO.FS.createDirAll (pathString (Text.utf8 "/" ++ Text.join (Text.utf8 "/") place.dropLast))
      IO.FS.writeBinFile (pathString (Text.utf8 "/" ++ Text.join (Text.utf8 "/") place))
        (array (History.contentBytes content))

/-- A random name in the form of a version 4 UUID. -/
def freshName : IO Bytes := do
  let raw := bytes (← IO.getRandomBytes 16)
  let marked := raw.zipIdx.map fun (b, i) =>
    if i = 6 then b &&& 0x0F ||| 0x40 else if i = 8 then b &&& 0x3F ||| 0x80 else b
  let part (start count : Nat) : Bytes := Text.hex ((marked.drop start).take count)
  return Text.join (Text.utf8 "-") [part 0 4, part 4 2, part 6 2, part 8 2, part 10 6]

/-- The name and the time of a run that is recorded now. -/
def freshStamp : IO History.Stamp := do
  let now ← Std.Time.Timestamp.now
  return ⟨← freshName, Int64.ofInt now.toNanosecondsSinceUnixEpoch.val⟩

/-- The time zone of this place, or UTC where it cannot be found. -/
def localZone : IO Instant.Zone := do
  try
    let rules ← Std.Time.Database.defaultGetLocalZoneRules
    return ⟨fun sec => Int32.ofInt
      (rules.timezoneAt (.ofSecondsSinceUnixEpoch (.ofInt sec.toInt))).offset.second.val⟩
  catch _ => return .utc

/-- All of the standard input. -/
def readInput : IO (Except Bytes Bytes) := do
  try
    return .ok (bytes (← (← IO.getStdin).readBinToEnd))
  catch e => return .error (Text.utf8 (toString e))

/-- How many turns a run is followed for: more than it can take in a lifetime. -/
def lifetime : Nat := Nat.pow 2 62

/-- Carries out a command line. -/
def run (arguments : List Bytes) : IO UInt32 := do
  let cwd := Path.cleanParts (Text.utf8 (← IO.currentDir).toString)
  let mut fs : FileSystem := { cwd }
  for _ in [0, 1] do
    for p in Cli.neededPaths arguments fs do
      fs ← fetch fs p
  let stdin ← if Cli.readsInput arguments then readInput else pure (.ok [])
  let surroundings : Cli.Surroundings :=
    { files := fs, stdin, stamp := ← freshStamp, zone := ← localZone, fuel := lifetime }
  match Cli.command arguments surroundings with
  | .report r =>
    writeBack fs r.files
    (← IO.getStdout).write (array r.stdout)
    (← IO.getStderr).write (array r.stderr)
    return UInt32.ofNat r.code
  | .serve m _ =>
    IO.eprintln ("Server error: serving is not supported: " ++ pathString m.addr)
    return 1
  | .edit _ =>
    IO.eprintln "LSP error: talking to an editor is not supported"
    return 1
  | .crash stdout files =>
    writeBack fs files
    (← IO.getStdout).write (array stdout)
    IO.eprintln "svm: broken run history"
    return 2
  | .unfinished =>
    IO.eprintln "svm: run not finished"
    return 1

end StackMachine.Program

/-- The command line program. -/
def main (arguments : List String) : IO UInt32 :=
  StackMachine.Program.run (arguments.map Text.utf8)
