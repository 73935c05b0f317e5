import StackMachine.History.Run
import StackMachine.Host.Path

/-!
# File systems

A file system is a value: the files there are, with what they hold, the directories that were made,
and the directory that relative paths start from. A directory also exists when something lies in it.

A path is followed one part at a time, and every part but the last has to lead to a directory.
-/

namespace StackMachine

open Text

/-- A place in a file system: the names on the way from the root. -/
abbrev Location := List Bytes

/-- What a file holds. -/
inductive Content where
  | text (t : Bytes)
  /-- The runs of a store, in the order in which they were recorded. -/
  | runs (log : List History.Run)
  deriving DecidableEq, Repr

/-- Files and directories. -/
structure FileSystem where
  files : List (Location × Content) := []
  /-- Directories that exist whether or not they hold anything. -/
  dirs : List Location := []
  /-- The directory that relative paths start from. -/
  cwd : Location := []
  deriving DecidableEq, Repr

/-- What stands in the way of using a path. -/
inductive Obstacle where
  | absent
  | notDirectory
  | isDirectory
  /-- A part has more bytes than a name can have. -/
  | tooLong
  /-- The path holds a zero byte. -/
  | zeroByte
  deriving DecidableEq, Repr

/-- The wording of an obstacle. -/
def Obstacle.message : Obstacle → Bytes
  | .absent => utf8 "no such file or directory"
  | .notDirectory => utf8 "not a directory"
  | .isDirectory => utf8 "is a directory"
  | .tooLong => utf8 "file name too long"
  | .zeroByte => utf8 "invalid argument"

/-- A path that could not be used: what was tried, on which path, and what was in the way. -/
structure PathError where
  attempt : String
  path : Bytes
  obstacle : Obstacle
  deriving DecidableEq, Repr

/-- The wording of a path that could not be used. -/
def PathError.message (e : PathError) : Bytes :=
  utf8 e.attempt ++ utf8 " " ++ e.path ++ utf8 ": " ++ e.obstacle.message

namespace FileSystem

/-- The content of the file at a place. -/
def file? (fs : FileSystem) (l : Location) : Option Content := fs.files.lookup l

/-- Whether there is a directory at a place. -/
def isDir (fs : FileSystem) (l : Location) : Bool :=
  l.isPrefixOf fs.cwd || fs.dirs.any l.isPrefixOf
    || fs.files.any fun (m, _) => l.isPrefixOf m && l != m

/-- Whether there is anything at a place. -/
def occupied (fs : FileSystem) (l : Location) : Bool := (fs.file? l).isSome || fs.isDir l

/-- The working directory as a path. -/
def cwdPath (fs : FileSystem) : Bytes := Path.slash :: Text.join [Path.slash] fs.cwd

/-- The most bytes a name can have. -/
def longestName : Nat := 255

/-- The most bytes a path can have. -/
def longestPath : Nat := 4095

/-- The place reached from another one by following the parts of a path. The place itself need not
exist, but all on the way to it has to. -/
def walk (fs : FileSystem) : Location → List Bytes → Except Obstacle Location
  | l, [] => .ok l
  | l, part :: rest =>
    if (fs.file? l).isSome then .error .notDirectory
    else if !fs.isDir l then .error .absent
    else if part = [] ∨ part = Path.here then fs.walk l rest
    else if part = Path.up then fs.walk l.dropLast rest
    else if longestName < part.length then .error .tooLong
    else fs.walk (l ++ [part]) rest

/-- The place that a path names. -/
def locate (fs : FileSystem) (p : Bytes) : Except Obstacle Location :=
  if p = [] then .error .absent
  else if p.contains 0 then .error .zeroByte
  else if longestPath < p.length then .error .tooLong
  else fs.walk (if Path.isAbsolute p then [] else fs.cwd) (Path.parts p)

/-- Whether a path names something that exists. -/
def present (fs : FileSystem) (p : Bytes) : Bool :=
  match fs.locate p with
  | .ok l => fs.occupied l
  | .error _ => false

/-- A file with a given content, in place of one that was there. -/
def put (fs : FileSystem) (l : Location) (c : Content) : FileSystem :=
  { fs with files := (l, c) :: fs.files.filter (·.1 ≠ l) }

/-- The content of the file that a path names. -/
def read (fs : FileSystem) (p : Bytes) : Except PathError Content :=
  match fs.locate p with
  | .error o => .error ⟨"open", p, o⟩
  | .ok l =>
    match fs.file? l with
    | some c => .ok c
    | none =>
      if fs.isDir l then .error ⟨"read", p, .isDirectory⟩ else .error ⟨"open", p, .absent⟩

/-- Makes a directory, unless it is there already. -/
def makeDir (fs : FileSystem) (p : Bytes) : Except PathError FileSystem :=
  match fs.locate p with
  | .error o => .error ⟨"mkdir", p, o⟩
  | .ok l =>
    if fs.isDir l then .ok fs
    else if (fs.file? l).isSome then .error ⟨"mkdir", p, .notDirectory⟩
    else .ok { fs with dirs := l :: fs.dirs }

/-- Makes directories one after the other, up to the first that cannot be made. -/
def makeEach (fs : FileSystem) : List Bytes → Option PathError × FileSystem
  | [] => (none, fs)
  | p :: rest =>
    match fs.makeDir p with
    | .ok fs => fs.makeEach rest
    | .error e => (some e, fs)

/-- Makes a directory and those on the way to it. -/
def makeDirs (fs : FileSystem) (p : Bytes) : Option PathError × FileSystem :=
  fs.makeEach (Path.wayTo p)

/-- Makes sure that a file exists; one that does not is created empty. Nothing happens where no
file can be. -/
def touch (fs : FileSystem) (p : Bytes) : FileSystem :=
  match fs.locate p with
  | .error _ => fs
  | .ok l => if fs.occupied l then fs else fs.put l (.text [])

end FileSystem

end StackMachine
