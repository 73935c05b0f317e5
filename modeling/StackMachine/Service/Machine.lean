import StackMachine.Assembly
import StackMachine.Engine
import StackMachine.Listing
import StackMachine.History.Store
import StackMachine.Service.Worker
import StackMachine.Time.Duration
import StackMachine.Wire.Message

/-!
# The machine as a service

The service runs programs, checks them, lists its instructions and shows what it ran before. Every
run has a fresh machine over the registry that all share. A run that fails is answered like any
other, with the fault in the answer; a request that makes no sense is refused with a code.
-/

namespace StackMachine

open Text

/-- The codes of refused requests. -/
inductive RefusalCode where
  | invalidArgument
  | unimplemented
  | internal
  | unavailable
  | unknown
  deriving DecidableEq, Repr

/-- The name of a code. -/
def RefusalCode.name : RefusalCode → String
  | .invalidArgument => "invalid_argument"
  | .unimplemented => "unimplemented"
  | .internal => "internal"
  | .unavailable => "unavailable"
  | .unknown => "unknown"

/-- The HTTP status of a refusal. -/
def RefusalCode.status : RefusalCode → Nat
  | .invalidArgument => 400
  | .unimplemented => 501
  | .internal => 500
  | .unavailable => 503
  | .unknown => 500

/-- A request that was refused. -/
structure Refusal where
  code : RefusalCode
  message : Bytes
  deriving DecidableEq, Repr

/-- A service: the worker, the store of runs if they are recorded, the most steps a run may take,
and how long it may take. Limits that are not positive are none. -/
structure Service (α : Type) where
  worker : Worker α
  store : Option History.Store := none
  maxSteps : Int64 := 0
  timeout : Duration := ⟨0⟩

/-- What the surroundings contribute to a request. -/
structure Occasion where
  /-- The nanoseconds that have passed by each turn of a run. -/
  elapsed : Nat → Nat
  /-- How many turns a run is followed for. -/
  fuel : Nat
  stamp : History.Stamp

/-- Assembles a program and runs it on a fresh machine over a registry. The answer is a response, or
the message of an instruction that broke down; there is none when the run outlasts the fuel. The
registry may have been changed by the run. -/
def execute {α : Type} [Action α] (program : Bytes) (debug : Bool) (maxSteps : Int64)
    (signals : Signals) (fuel : Nat) (r : Registry α) :
    Option (Except Bytes Wire.RunResponse × Registry α) :=
  match assemble r program with
  | .error e => some (.ok { fault := some (.ofFailure e) }, r)
  | .ok code =>
    let s := { State.new r debug with maxSteps }
    match s.run code signals fuel with
    | none => none
    | some (.crash message, s) => some (.error message, s.registry)
    | some (ending, s) =>
      some (.ok
        { result := ending.result, output := s.output.toBytes, trace := s.stdout.toBytes
          steps := s.steps, fault := ending.failure?.map .ofFailure }, s.registry)

/-- What a program comes to when it is assembled: its listing, or what is wrong with its lines. -/
def check {α : Type} (program : Bytes) (r : Registry α) : Wire.AssembleResponse :=
  match validate r program with
  | [] =>
    match assemble r program with
    | .error e => { diagnostics := some [.ofFailure e] }
    | .ok code =>
      { valid := true, instructions := Int64.ofNat code.size, listing := listing r code }
  | faults => { diagnostics := some (faults.map .ofFailure) }

/-- The registered instructions in the order of their numbers. -/
def instructionInfos {α : Type} (r : Registry α) : List Wire.InstructionInfo :=
  r.entries.toList.zipIdx.map fun (e, id) =>
    { id := Int64.ofNat id, name := e.name, doc := r.doc e.name }

/-- A recorded run as a message. -/
def Wire.RunSummary.ofRun (r : History.Run) : Wire.RunSummary :=
  { id := r.id, createdAt := r.time, programHash := r.programHash, result := r.result
    output := r.output, faultKind := r.faultKind, steps := r.steps }

/-- The response to a run as it is recorded. -/
def Wire.RunResponse.draft (response : Wire.RunResponse) (program : Bytes) : History.Draft :=
  { program, result := response.result, output := response.output, steps := response.steps
    faultKind := (response.fault.map (·.kind)).getD []
    faultMessage := (response.fault.map (·.message)).getD [] }

namespace Service

variable {α : Type}

/-- The tighter of the limit that a request asks for and the one the service sets. -/
def stepLimit (configured requested : Int64) : Int64 :=
  if requested ≤ 0 then configured
  else if configured ≤ 0 ∨ requested < configured then requested
  else configured

/-- The request to stop that reaches a run when its time is up. -/
def deadline (s : Service α) (elapsed : Nat → Nat) : Signals := fun turn =>
  if 0 < s.timeout.nanos ∧ s.timeout.nanos.toInt ≤ elapsed turn then some .deadline else none

/-- Records a response and puts the name of the record into it. A run that cannot be recorded has no
name. -/
def remember (s : Service α) (program : Bytes) (response : Wire.RunResponse)
    (stamp : History.Stamp) : Wire.RunResponse × Service α :=
  match s.store with
  | none => (response, s)
  | some store =>
    match store.record none (response.draft program) stamp with
    | .ok (id, store) => ({ response with runId := id }, { s with store := some store })
    | .error _ => (response, s)

/-- The response to a run that the worker has no answer for. -/
def unanswered (e : WorkerError) : Wire.RunResponse :=
  { fault := some { kind := utf8 "internal", message := e.message, pc := -1 } }

/-- Runs a program. Only runs that the worker has answered are recorded. -/
def run [Action α] (s : Service α) (request : Wire.RunRequest) (o : Occasion) :
    Option (Except Refusal Wire.RunResponse × Service α) := do
  if request.program = [] then
    some (.error ⟨.invalidArgument, utf8 "program is required"⟩, s)
  else
    let limit := stepLimit s.maxSteps request.maxSteps
    let (answer, worker) ← s.worker.perform
      (execute request.program request.debug limit (s.deadline o.elapsed) o.fuel)
    let s := { s with worker }
    match answer with
    | .error e => some (.ok (unanswered e), s)
    | .ok response =>
      let (response, s) := s.remember request.program response o.stamp
      some (.ok response, s)

/-- The refusal of a request that the worker has no answer for. -/
def refuse (e : WorkerError) : Refusal := ⟨.internal, e.message⟩

/-- Checks a program. -/
def assemble (s : Service α) (request : Wire.AssembleRequest) :
    Except Refusal Wire.AssembleResponse :=
  (s.worker.ask (check request.program)).mapError refuse

/-- Lists the instructions. -/
def instructions (s : Service α) : Except Refusal Wire.InstructionsResponse :=
  (s.worker.ask fun r => { instructions := some (instructionInfos r) }).mapError refuse

/-- How many runs are shown when a request does not say. -/
def defaultHistoryLimit : Int64 := 20

/-- Shows the newest runs. -/
def history (s : Service α) (request : Wire.HistoryRequest) : Except Refusal Wire.HistoryResponse :=
  match s.store with
  | none => .error ⟨.unimplemented, utf8 "run history is disabled"⟩
  | some store =>
    let limit := if request.limit ≤ 0 then defaultHistoryLimit else request.limit
    match store.recent none limit with
    | .error e => .error ⟨.internal, History.listingMessage e⟩
    | .ok runs => .ok { runs := some (runs.map .ofRun) }

/-- The service once its worker is stopped. -/
def stop (s : Service α) : Service α := { s with worker := s.worker.stop }

end Service

end StackMachine
