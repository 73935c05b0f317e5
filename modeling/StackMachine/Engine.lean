import StackMachine.State

/-!
# Running code

A run repeats one turn: look at the state the way the head of the loop does (`State.ready`), then
dispatch the instruction found there (`State.dispatch`). It ends with a value when an instruction
halts it, and with a failure otherwise.

The loop is driven by fuel, one unit a turn; running out of fuel is told apart from every ending,
so an answer that was reached is the answer for any larger amount of fuel too.
-/

namespace StackMachine

open Text

/-- How a run ended. -/
inductive Ending where
  /-- An instruction halted the run with this value on top of the stack. -/
  | value (v : Value)
  | failure (e : Failure)
  /-- An instruction broke down. -/
  | crash (message : Bytes)
  deriving DecidableEq, Repr

/-- The value a run returns, zero unless it ended well. -/
def Ending.result : Ending → Value
  | .value v => v
  | _ => 0

/-- The failure a run ended with. -/
def Ending.failure? : Ending → Option Failure
  | .failure e => some e
  | _ => none

/-- The requests to stop that reach a run from outside: what has arrived by its `n`-th turn. -/
abbrev Signals := Nat → Option Interrupt

/-- No request ever arrives. -/
def Signals.none : Signals := fun _ => .none

/-- Requests to stop are looked for when the step count is a multiple of this. -/
def pollInterval : Int64 := 1024

namespace State

variable {α : Type}

/-! ## The listing on entry -/

/-- Prints `NAME ARG` for each instruction. The first operation number that is not registered ends
the list and turns debugging off. -/
def printInstructions : State α → List Instruction → State α
  | s, [] => s
  | s, i :: rest =>
    match s.registry.name? i.op with
    | some name => (s.print (line (name ++ utf8 " " ++ word i.arg))).printInstructions rest
    | none =>
      { (s.print (utf8 "could not disassemble - op_id unknown...\nturning off debug mode.\n")) with
        debug := false }

/-- Prints the code that is about to run. -/
def printListing (code : Code) (s : State α) : State α :=
  let s := s.print (utf8 "=== running vm ======================\ndisassembly of run code:\n")
  (s.printInstructions code.toList).print (utf8 "=== end of disassembly\n\n")

/-- Begins a run: the first one on a state in debug mode prints the code. -/
def enter (code : Code) (s : State α) : State α :=
  { (if s.debug && !s.entered then s.printListing code else s) with entered := true }

/-! ## One turn -/

/-- The failure of a program counter that left the code. -/
def outside (code : Code) (s : State α) : Failure :=
  .fault
    { kind := .segfault
      msg := utf8 "execution in invalid place. code size = " ++ decimal code.size
      pc := s.pc }

/-- The failure of a run that has used up its steps. -/
def exhausted (s : State α) : Failure :=
  .wrap [] (utf8 " after " ++ word s.steps ++ utf8 " steps (pc=" ++ word s.pc ++ utf8 ")")
    .stepLimit

/-- The failure of a run that was asked to stop. -/
def aborted (s : State α) (i : Interrupt) : Failure :=
  .wrap (utf8 "run aborted at pc=" ++ word s.pc ++ utf8 ": ") [] (.interrupt i)

/-- Whether the step limit forbids another step. -/
def atLimit (s : State α) : Bool := 0 < s.maxSteps && s.maxSteps ≤ s.steps

/-- The request to stop that the head of the loop notices. -/
def noticed (s : State α) : Option Interrupt :=
  if s.steps % pollInterval = 0 then s.interrupt else none

/-- What the head of the loop finds: the next instruction, or a reason to stop. The program counter
is judged first, then the step limit, then a request to stop. -/
def ready (code : Code) (s : State α) : Except Failure Instruction :=
  match code.fetch? s.pc with
  | none => .error (s.outside code)
  | some i =>
    if s.atLimit then .error s.exhausted
    else match s.noticed with
      | some r => .error (s.aborted r)
      | none => .ok i

/-- Prints an instruction before it runs. -/
def trace (i : Instruction) (s : State α) : State α :=
  if s.debug then
    s.print (line (utf8 "-- exec " ++ (s.registry.name? i.op).getD [] ++ utf8 " arg=" ++ word i.arg
      ++ utf8 " at pc=" ++ word s.pc))
  else s

/-- Counts an instruction and moves past it. Jumps then set the program counter anew. -/
def advance (s : State α) : State α := { s with pc := s.pc + 1, steps := s.steps + 1 }

/-- The failure of an operation number that is not registered. -/
def unregistered (i : Instruction) (s : State α) : Failure :=
  .fault
    { kind := .invalidInstruction
      msg := utf8 "opcode " ++ word i.op ++ utf8 " not registered"
      pc := s.pc - 1 }

/-- Carries out one instruction. -/
def dispatch [Action α] (i : Instruction) (s : State α) : Verdict × State α :=
  let s := (s.trace i).advance
  match s.registry.action? i.op with
  | none => (.failed (s.unregistered i), s)
  | some a => Action.exec a i.arg s

/-- The ending of a run that an instruction halted. -/
def haltEnding (s : State α) : Ending :=
  match s.peek? with
  | some v => .value v
  | none => .failure (s.stackFail "" "no return value at halt")

/-! ## The loop -/

/-- A state that has heard of a request to stop. The first request stays. -/
def hear (r : Option Interrupt) (s : State α) : State α :=
  { s with interrupt := s.interrupt <|> r }

/-- The run from its `turn`-th turn on, for at most `fuel` turns. -/
def loop [Action α] (code : Code) (signals : Signals) :
    (fuel turn : Nat) → State α → Option (Ending × State α)
  | 0, _, _ => none
  | fuel + 1, turn, s =>
    let s := s.hear (signals turn)
    match s.ready code with
    | .error e => some (.failure e, s)
    | .ok i =>
      match s.dispatch i with
      | (.more, s) => loop code signals fuel (turn + 1) s
      | (.halt, s) => some (s.haltEnding, s)
      | (.failed e, s) => some (.failure e, s)
      | (.crashed m, s) => some (.crash m, s)

/-- A run of code on a state, for at most `fuel` turns. -/
def run [Action α] (code : Code) (signals : Signals) (fuel : Nat) (s : State α) :
    Option (Ending × State α) :=
  loop code signals fuel 0 (s.enter code)

end State

end StackMachine
