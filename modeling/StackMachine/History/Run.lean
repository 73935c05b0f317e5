import StackMachine.Instruction
import StackMachine.Digest.Sha256
import StackMachine.Time.Instant

/-!
# Recorded runs

A run is recorded with the program, what came of it, and when. Whoever records a run may leave out
its name, its time and the digest of its program; they are filled in when it is stored.
-/

namespace StackMachine.History

open Text

/-- The digest by which a program is known: the SHA-256 of its text in hexadecimal. -/
def programHash (program : Bytes) : Bytes := hex (Sha256.digest program)

/-- A recorded run. -/
structure Run where
  id : Bytes
  /-- Nanoseconds since the start of 1970. -/
  createdAt : Int64
  programHash : Bytes
  program : Bytes
  result : Value
  output : Bytes
  /-- The kind of fault the run ended with, empty for a run that ended well. -/
  faultKind : Bytes
  faultMessage : Bytes
  steps : Int64
  deriving DecidableEq, Repr

/-- When a run was created. -/
def Run.time (r : Run) : Instant := .ofNanos r.createdAt

/-- Whether a run ended with a fault. -/
def Run.failed (r : Run) : Bool := r.faultKind ≠ []

/-- A run as it is handed over for recording. -/
structure Draft where
  /-- Empty when the store is to choose one. -/
  id : Bytes := []
  /-- Absent when the run is to carry the time of its recording. -/
  createdAt : Option Instant := none
  /-- Empty when it is to be computed from the program. -/
  programHash : Bytes := []
  program : Bytes := []
  result : Value := 0
  output : Bytes := []
  faultKind : Bytes := []
  faultMessage : Bytes := []
  steps : Int64 := 0
  deriving DecidableEq, Repr

/-- What the surroundings contribute to a recording: a name nobody else uses, and the time. -/
structure Stamp where
  id : Bytes
  now : Int64
  deriving DecidableEq, Repr

/-- The run that a draft becomes. -/
def Draft.complete (d : Draft) (stamp : Stamp) : Run where
  id := if d.id = [] then stamp.id else d.id
  createdAt := (d.createdAt.map (·.toNanos)).getD stamp.now
  programHash := if d.programHash = [] then History.programHash d.program else d.programHash
  program := d.program
  result := d.result
  output := d.output
  faultKind := d.faultKind
  faultMessage := d.faultMessage
  steps := d.steps

end StackMachine.History
