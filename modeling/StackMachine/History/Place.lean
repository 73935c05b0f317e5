import StackMachine.Text.Case
import StackMachine.Text.Query

/-!
# Where a store lives

A store is opened by a name. Most names are paths, but not all of a name need count: a zero byte
ends it, and a question mark begins parameters. A name that begins with `file:` is a URL, which can
spell its path with escapes and say how the file is to be used. An empty path and `:memory:` name no
file: such a store ends with its use.
-/

namespace StackMachine.History

open Text

/-- What may be done with the file of a store. -/
inductive Access where
  | create
  /-- The file has to be there. -/
  | existing
  /-- The file has to be there and stays as it is. -/
  | readOnly
  deriving DecidableEq, Repr

/-- Where a store lives. -/
structure Place where
  /-- The path of its file, or nothing if it ends with its use. -/
  path : Option Bytes := none
  access : Access := .create
  deriving DecidableEq, Repr

/-- Why a name does not say where a store lives. -/
inductive PlaceError where
  | query (e : Query.Error)
  /-- Several ways of keeping files are asked for. -/
  | systems (names : List Bytes)
  /-- Something in the name is not known. -/
  | unknown
  /-- The way of locking that is asked for is not known. -/
  | lock (name : Bytes)
  deriving DecidableEq, Repr

/-- The wording of a name that does not say where a store lives. -/
def PlaceError.message : PlaceError → Bytes
  | .query e => e.message
  | .systems names =>
    utf8 "conflicting vfs query parameters: [" ++ Text.join (utf8 " ") names ++ utf8 "]"
  | .unknown => utf8 "SQL logic error: out of memory (1)"
  | .lock name => utf8 "unknown _txlock " ++ quoted name

namespace Place

/-- The name that stands for no file. -/
def memoryName : Bytes := utf8 ":memory:"

/-- What a name that is a URL begins with. -/
def scheme : Bytes := utf8 "file:"

/-- The place with a path. -/
def ofPath (path : Bytes) (access : Access) : Place :=
  if path = [] ∨ path = memoryName then { access } else { path := some path, access }

/-! ## Parameters -/

/-- The parameters in a name. A question mark in front begins none. -/
def queryOf (name : Bytes) : Bytes :=
  if name.head? = some (ascii '?') then [] else (Query.cut (ascii '?') name).2

/-- A name without its parameters. -/
def withoutQuery (name : Bytes) : Bytes :=
  if name.head? = some (ascii '?') then name else (Query.cut (ascii '?') name).1

/-- The ways of keeping files that are known. -/
def systems : List String := ["unix", "unix-none", "unix-dotfile", "unix-excl", "memdb"]

/-- The way of keeping files that parameters ask for. An empty one does not count. -/
def systemOf (ps : List (Bytes × Bytes)) : Except PlaceError (Option Bytes) :=
  let asked := Query.values ps "vfs"
  let named := asked.dropWhile (· = [])
  match named with
  | [] => .ok none
  | system :: rest => if rest.all (· = system) then .ok (some system) else .error (.systems asked)

/-- The ways of locking that are known; an empty name asks for none of them. -/
def locks : List String := ["", "deferred", "immediate", "exclusive"]

/-- Checks the way of locking that parameters ask for. The first one counts. -/
def checkLock (ps : List (Bytes × Bytes)) : Except PlaceError Unit :=
  let lock := (Query.values ps "_txlock").head?.getD []
  if locks.any (utf8 · = lowerName lock) then .ok () else .error (.lock lock)

/-! ## URLs -/

/-- What follows the host in a URL. No other host than this one can be named. -/
def beyondHost (t : Bytes) : Except PlaceError Bytes :=
  match dropPrefix? (utf8 "//") t with
  | none => .ok t
  | some rest =>
    let host := rest.takeWhile (· ≠ ascii '/')
    if host = [] ∨ host = utf8 "localhost" then .ok (rest.drop host.length) else .error .unknown

/-- The options of a URL, in order; one without a name does not count. -/
def options (query : Bytes) : List (Bytes × Bytes) :=
  ((pieces (ascii '&') [] query).map fun t =>
    let (name, value) := Query.cut (ascii '=') t
    (Percent.decodeLoosely name, Percent.decodeLoosely value)).filter (·.1 ≠ [])

/-- The values that an option can have; other options can have any. -/
def optionValues (name : Bytes) : Option (List String) :=
  if name = utf8 "vfs" then some systems
  else if name = utf8 "cache" then some ["shared", "private"]
  else if name = utf8 "mode" then some ["ro", "rw", "rwc", "memory"]
  else none

/-- Whether an option has a value that it can have. -/
def isKnown (option : Bytes × Bytes) : Bool :=
  match optionValues option.1 with
  | some values => values.any (utf8 · = option.2)
  | none => true

/-- The place with a path, used in the way that a mode says. -/
def ofMode (path mode : Bytes) : Place :=
  if mode = utf8 "memory" then {}
  else if mode = utf8 "ro" then ofPath path .readOnly
  else if mode = utf8 "rw" then ofPath path .existing
  else ofPath path .create

/-- The place that a URL names, from what follows its scheme. The last mode counts. -/
def ofUrl (t : Bytes) : Except PlaceError Place := do
  let t ← beyondHost t
  let (path, query) := Query.cut (ascii '?') (t.takeWhile (· ≠ ascii '#'))
  let options := options query
  let mode := (Query.values options "mode").getLast?.getD []
  if options.all isKnown then .ok (ofMode (Percent.decodeLoosely path) mode) else .error .unknown

/-! ## Names -/

/-- The place that a name stands for. -/
def ofName (name : Bytes) : Except PlaceError Place := do
  let ps ← (Query.parameters (queryOf name)).mapError .query
  let system ← systemOf ps
  let untilZero := (if scheme.isPrefixOf name then name else withoutQuery name).takeWhile (· ≠ 0)
  let place ← match dropPrefix? scheme untilZero with
    | some rest => ofUrl rest
    | none => .ok (ofPath untilZero .create)
  match system with
  | none => .ok place
  | some system =>
    if systems.all (utf8 · ≠ system) then .error .unknown
    else if system = utf8 "memdb" then .ok { path := none, access := place.access }
    else .ok place

/-- Checks what a name says beside the place. -/
def checkName (name : Bytes) : Except PlaceError Unit := do
  checkLock (← (Query.parameters (queryOf name)).mapError .query)

end Place

end StackMachine.History
