import StackMachine.Failure
import StackMachine.Time.Instant

/-!
# Messages of the machine's service

Clients send program texts and get reports back. Assembled code never travels: operation numbers
mean something only to the registry that gave them out.

A list that may be missing is an `Option`, because a missing list and an empty one are told apart on
the wire.
-/

namespace StackMachine.Wire

open Text

/-- Asks for a program to be assembled and run. -/
structure RunRequest where
  program : Bytes := []
  debug : Bool := false
  maxSteps : Int64 := 0
  deriving DecidableEq, Repr

/-- What made a run fail. -/
structure FaultInfo where
  kind : Bytes := []
  message : Bytes := []
  pc : Int64 := 0
  line : Int64 := 0
  deriving DecidableEq, Repr

/-- The outcome of a run. The result means something only when there is no fault. -/
structure RunResponse where
  runId : Bytes := []
  result : Int64 := 0
  output : Bytes := []
  trace : Bytes := []
  steps : Int64 := 0
  fault : Option FaultInfo := none
  deriving DecidableEq, Repr

/-- Asks for a program to be checked. -/
structure AssembleRequest where
  program : Bytes := []
  deriving DecidableEq, Repr

/-- What is wrong with one line of a program. -/
structure Diagnostic where
  line : Int64 := 0
  message : Bytes := []
  deriving DecidableEq, Repr

/-- The listing of a valid program, or what is wrong with each faulty line. -/
structure AssembleResponse where
  valid : Bool := false
  instructions : Int64 := 0
  listing : Bytes := []
  diagnostics : Option (List Diagnostic) := none
  deriving DecidableEq, Repr

/-- Asks for the instruction set. -/
structure InstructionsRequest where
  deriving DecidableEq, Repr

/-- One registered instruction. -/
structure InstructionInfo where
  id : Int64 := 0
  name : Bytes := []
  doc : Bytes := []
  deriving DecidableEq, Repr

/-- The instruction set in the order of its numbers. -/
structure InstructionsResponse where
  instructions : Option (List InstructionInfo) := none
  deriving DecidableEq, Repr

/-- Asks for the latest runs. -/
structure HistoryRequest where
  limit : Int64 := 0
  deriving DecidableEq, Repr

/-- One recorded run. -/
structure RunSummary where
  id : Bytes := []
  createdAt : Instant := .zero
  programHash : Bytes := []
  result : Int64 := 0
  output : Bytes := []
  faultKind : Bytes := []
  steps : Int64 := 0
  deriving DecidableEq, Repr

/-- Recorded runs, the latest first. -/
structure HistoryResponse where
  runs : Option (List RunSummary) := none
  deriving DecidableEq, Repr

/-! ## Failures as messages -/

/-- The wording of a fault and of what caused it, without kind and place. -/
def faultMessage (f : Fault) (cause : Option Failure) : Bytes :=
  match cause with
  | none => f.msg
  | some c => f.msg ++ utf8 ": " ++ c.message

/-- The kind of a run that stopped without a fault. -/
def abortKind (e : Failure) : Bytes :=
  if e.hasStepLimit then utf8 "step_limit"
  else if e.hasInterrupt then utf8 "canceled"
  else utf8 "internal"

/-- A failure as a message: its outermost fault, or the kind of abort that it is. -/
def FaultInfo.ofFailure (e : Failure) : FaultInfo :=
  match e.fault? with
  | some (f, cause) =>
    { kind := f.kind.name, message := faultMessage f cause, pc := f.pc, line := f.line }
  | none => { kind := abortKind e, message := e.message, pc := -1 }

/-- A failure as a diagnostic. -/
def Diagnostic.ofFailure (e : Failure) : Diagnostic :=
  match e.fault? with
  | some (f, cause) => { line := f.line, message := faultMessage f cause }
  | none => { message := e.message }

end StackMachine.Wire
