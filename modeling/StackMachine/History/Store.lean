import StackMachine.History.Place
import StackMachine.History.Row
import StackMachine.Failure

/-!
# The run store

A store is an append-only list of runs, each under a name of its own. `recent` shows it newest
first: by time, and among runs of one time the later recorded first.

A store can be closed, and a request can come too late to be answered; both are told apart from
what the store holds.
-/

namespace StackMachine.History

open Text

/-- Runs in the order in which they were recorded. -/
abbrev Log := List Run

namespace Log

/-- Inserts a run as a row, behind the others. What is kept is what is read from the row. -/
def insert (log : Log) (run : Run) : Log := log ++ (Row.ofRun run).run?.toList

theorem insert_eq (log : Log) (run : Run) : log.insert run = log ++ [run] := by
  rw [insert, Row.run?_ofRun, Option.toList_some]

/-- The run with a name. -/
def get? (log : Log) (id : Bytes) : Option Run := log.find? (·.id = id)

/-- Whether the first run is shown before the second one, when it was not recorded before it. -/
def notOlder (a b : Run) : Bool := b.createdAt ≤ a.createdAt

/-- All runs, newest first. Sorting keeps the order of runs of one time. -/
def newestFirst (log : Log) : List Run := log.reverse.mergeSort notOlder

/-- The newest runs, as many as a limit says; a limit that is not positive is none. -/
def recent (log : Log) (limit : Int64) : List Run :=
  if limit ≤ 0 then log.newestFirst else log.newestFirst.take limit.toInt.toNat

end Log

/-- Why a store does not do what it is asked. -/
inductive StoreError where
  /-- A run of that name is there already. -/
  | duplicate
  /-- The store may not be changed. -/
  | readOnly
  | closed
  | interrupted (i : Interrupt)
  deriving DecidableEq, Repr

/-- The wording of a change to a store that may not be changed. -/
def readOnlyMessage : Bytes := utf8 "attempt to write a readonly database (8)"

/-- The wording of a store error. -/
def StoreError.message : StoreError → Bytes
  | .duplicate => utf8 "constraint failed: UNIQUE constraint failed: runs.id (1555)"
  | .readOnly => readOnlyMessage
  | .closed => utf8 "sql: database is closed"
  | .interrupted i => i.message

/-- An opened run store. -/
structure Store where
  /-- The name it was opened with. -/
  path : Bytes
  place : Place := {}
  log : Log := []
  isOpen : Bool := true
  deriving DecidableEq, Repr

namespace Store

/-- A store that is kept nowhere but in memory. -/
def memory : Store := { path := Place.memoryName }

/-- Whether a store can answer: it is open, and the request has not been given up. -/
def available (s : Store) (interrupt : Option Interrupt) : Except StoreError Unit :=
  if !s.isOpen then .error .closed
  else match interrupt with
    | some i => .error (.interrupted i)
    | none => .ok ()

/-- Records a run under its name, or refuses one whose name is taken. A store that may not be
changed refuses every run. -/
def record (s : Store) (interrupt : Option Interrupt) (d : Draft) (stamp : Stamp) :
    Except StoreError (Bytes × Store) := do
  s.available interrupt
  let run := d.complete stamp
  if s.place.access = .readOnly then .error .readOnly
  else match s.log.get? run.id with
    | some _ => .error .duplicate
    | none => .ok (run.id, { s with log := s.log.insert run })

/-- The run with a name. -/
def get? (s : Store) (interrupt : Option Interrupt) (id : Bytes) :
    Except StoreError (Option Run) := do
  s.available interrupt
  .ok (s.log.get? id)

/-- The newest runs, as many as a limit says; a limit that is not positive is none. -/
def recent (s : Store) (interrupt : Option Interrupt) (limit : Int64) :
    Except StoreError (List Run) := do
  s.available interrupt
  .ok (s.log.recent limit)

/-- How many runs are recorded. -/
def count (s : Store) (interrupt : Option Interrupt) : Except StoreError Nat := do
  s.available interrupt
  .ok s.log.length

/-- The store once it is closed. -/
def close (s : Store) : Store := { s with isOpen := false }

end Store

/-! ## Wording -/

/-- The message of a run that could not be recorded. -/
def recordingMessage (e : StoreError) : Bytes := utf8 "history: recording run: " ++ e.message

/-- The message of a run that could not be looked up. -/
def loadingMessage (id : Bytes) (e : StoreError) : Bytes :=
  utf8 "history: loading run " ++ id ++ utf8 ": " ++ e.message

/-- The message of a name under which no run is recorded. -/
def notFoundMessage : Bytes := utf8 "run not found"

/-- The message of runs that could not be listed. -/
def listingMessage (e : StoreError) : Bytes := utf8 "history: listing runs: " ++ e.message

/-- The message of runs that could not be counted. -/
def countingMessage (e : StoreError) : Bytes := utf8 "history: counting runs: " ++ e.message

end StackMachine.History
