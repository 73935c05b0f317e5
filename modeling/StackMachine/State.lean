import StackMachine.Registry
import StackMachine.Failure
import StackMachine.Text.Transcript

/-!
# The machine's state

A state holds everything a run reads and changes: program counter, stack, output, step count and
limit, the registry, and what was printed to standard output. Instructions are state transformers
that also say how the run goes on (`Verdict`).
-/

namespace StackMachine

open Text

/-- The state of a machine whose instructions are described by `α`. -/
structure State (α : Type) where
  /-- The address of the next instruction. -/
  pc : Int64 := 0
  /-- The stack, its top first. -/
  stack : List Value := []
  /-- Whether to print the code on entry and each instruction before it runs. -/
  debug : Bool := false
  registry : Registry α
  /-- What was printed to standard output. -/
  stdout : Transcript := {}
  /-- The number of steps a run may reach; zero and below mean no limit. -/
  maxSteps : Int64 := 0
  /-- How many instructions were dispatched. -/
  steps : Int64 := 0
  /-- The output accumulated by writing instructions. -/
  output : Transcript := {}
  /-- Whether a run has begun on this state. -/
  entered : Bool := false
  /-- A request to stop that has reached the machine. -/
  interrupt : Option Interrupt := none

/-- How a run goes on after an instruction. -/
inductive Verdict where
  | more
  | halt
  | failed (e : Failure)
  /-- The instruction broke down, with a message. -/
  | crashed (message : Bytes)
  deriving DecidableEq, Repr

/-- What instructions described by `α` do to a state when they are given an argument. -/
class Action (α : Type) where
  exec : α → Value → State α → Verdict × State α

namespace State

variable {α : Type}

/-- A fresh state over a registry. -/
def new (registry : Registry α) (debug : Bool) : State α := { registry, debug }

/-- How many values are on the stack. -/
def depth (s : State α) : Nat := s.stack.length

/-- A value put on the stack. -/
def push (s : State α) (v : Value) : State α := { s with stack := v :: s.stack }

/-- The top of the stack and the state without it. -/
def pop? (s : State α) : Option (Value × State α) :=
  match s.stack with
  | [] => none
  | v :: rest => some (v, { s with stack := rest })

/-- The top of the stack. -/
def peek? (s : State α) : Option Value := s.stack.head?

/-- The top of the stack, the value beneath it and the state without them. Nothing is taken where
there are not two. -/
def pop2? (s : State α) : Option (Value × Value × State α) :=
  if s.depth < 2 then none
  else do
    let (a, s) ← s.pop?
    let (b, s) ← s.pop?
    some (a, b, s)

/-- A text added to the output. -/
def write (s : State α) (t : Bytes) : State α := { s with output := s.output.write t }

/-- A text printed to standard output. -/
def print (s : State α) (t : Bytes) : State α := { s with stdout := s.stdout.write t }

/-- The character that a word codes for: the one whose code its lower 32 bits hold, and the
replacement character when they hold none. -/
def charOf (v : Value) : Char :=
  let code := v.toInt32.toInt
  if 0 ≤ code ∧ code.toNat.isValidChar then Char.ofNat code.toNat else Char.ofNat 0xFFFD

/-- A character added to the output. -/
def writeChar (s : State α) (v : Value) : State α := s.write (encodeChar (charOf v))

/-- The failure of an instruction that finds too little on the stack. -/
def stackFail (s : State α) (op msg : String) : Failure :=
  .fault { kind := .stackFail, msg := utf8 msg, op := utf8 op, pc := s.pc }

end State

end StackMachine
