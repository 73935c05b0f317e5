import StackMachine.Host.FileSystem
import StackMachine.History.Archive
import StackMachine.History.Store

/-!
# Opening a store

A store lives in a file, which is created with its directory when it is not there. The directory is
taken from the whole name of the store, the file from the place that the name stands for.
-/

namespace StackMachine.History

open Text

/-- Why a store could not be opened. -/
inductive OpenError where
  | noDirectory (e : PathError)
  /-- The name does not say where the store lives. -/
  | misnamed (e : PlaceError)
  /-- There is no file where it should be, and none can be made. -/
  | noFile
  /-- The file holds something else. -/
  | notRuns
  /-- There is no store yet, and none may be made. -/
  | readOnly
  deriving DecidableEq, Repr

/-- The wording of a store that could not be opened. -/
def OpenError.message : OpenError → Bytes
  | .noDirectory e => utf8 "history: creating directory: " ++ e.message
  | .misnamed e => utf8 "history: setting busy timeout: " ++ e.message
  | .noFile =>
    utf8 "history: setting busy timeout: unable to open database file: out of memory (14)"
  | .notRuns => utf8 "history: creating table: file is not a database (26)"
  | .readOnly => utf8 "history: creating table: " ++ readOnlyMessage

/-- The runs that the content of a file stands for. A text of at most one byte stands for a store
that is still to be made. -/
def logOf : Content → Except OpenError (Option Log)
  | .runs log => .ok (some log)
  | .text [] => .ok none
  | .text [_] => .ok none
  | .text _ => .error .notRuns

/-- The most bytes that the path of a store can have, seen from the root. -/
def longestStorePath : Nat := 504

/-- The location of the file of a store. Two dots in its path take back the part before them,
whatever that is. -/
def fileOf? (fs : FileSystem) (path : Bytes) : Option Location :=
  let path := Path.absolute fs.cwdPath path
  if longestStorePath < path.length then none else (fs.locate path).toOption

/-- Writes the runs of a store to its file. -/
def Store.save (s : Store) (fs : FileSystem) : FileSystem :=
  match s.place.path.bind (fileOf? fs) with
  | none => fs
  | some l => fs.put l (.runs s.log)

/-- The runs at a place, or nothing if there is no store yet. -/
def logAt (fs : FileSystem) (place : Place) : Except OpenError (Option Log) :=
  match place.path with
  | none => .ok none
  | some path =>
    match fileOf? fs path with
    | none => .error .noFile
    | some l =>
      match fs.file? l with
      | some c => logOf c
      | none => if fs.isDir l ∨ place.access ≠ .create then .error .noFile else .ok none

/-- The store with a name, once the directory of its file exists. -/
def findStore (fs : FileSystem) (name : Bytes) : Except OpenError Store := do
  let place ← (Place.ofName name).mapError .misnamed
  let found ← match logAt fs place with
    | .error .noFile => .error .noFile
    | found => do
      (Place.checkName name).mapError .misnamed
      found
  match found with
  | some log => .ok { path := name, place, log }
  | none => if place.access = .readOnly then .error .readOnly else .ok { path := name, place }

/-- Opens the store with a name. Its directory is made first, and is there also when the store could
not be opened. -/
def openStore (fs : FileSystem) (name : Bytes) : Except OpenError Store × FileSystem :=
  match if name = Place.memoryName then (none, fs) else fs.makeDirs (Path.dir name) with
  | (some e, fs) => (.error (.noDirectory e), fs)
  | (none, fs) =>
    match findStore fs name with
    | .ok store => (.ok store, store.save fs)
    | .error e => (.error e, fs)

/-- The text of a file as another program reads it. -/
def contentBytes : Content → Bytes
  | .text t => t
  | .runs log => Archive.write log

end StackMachine.History
