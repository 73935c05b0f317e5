import StackMachine.Registry
import StackMachine.Failure
import StackMachine.Text.Split

/-!
# Assembling program texts

A program is one instruction a line: a name, or a name, one blank and a signed decimal argument.
`assemble` stops at the first line that is not an instruction; `validate` goes on and collects what
is wrong with every line. Both rest on `assembleLine`, so they agree line by line.
-/

namespace StackMachine

open Text

/-- What is wrong with a line of a program text. -/
inductive LineError where
  /-- More than two words. -/
  | tooManyWords (line : Bytes)
  /-- No word at all. -/
  | empty
  /-- The name is not bound in the registry. -/
  | unknown (name : Bytes)
  /-- The argument is not a signed 64-bit numeral. -/
  | badArgument (name : Bytes) (cause : Numeral.Error)
  deriving DecidableEq, Repr

namespace LineError

/-- The wording of a line error, without the cause of a bad argument. -/
def message : LineError → Bytes
  | tooManyWords line => utf8 "more than one instruction argument: " ++ line
  | empty => utf8 "empty instruction"
  | unknown name => utf8 "unknown instruction: " ++ name
  | badArgument name cause => utf8 "bad argument for " ++ name ++ utf8 ": " ++ cause.text

/-- The fault that reports a line error; lines are counted from one. -/
def fault (e : LineError) (number : Nat) : Fault where
  kind := .invalidInstruction
  msg := e.message
  pc := -1
  line := Int64.ofNat number

/-- The failure that reports a line error. -/
def failure (e : LineError) (number : Nat) : Failure :=
  match e with
  | badArgument _ cause => .faultBecause (e.fault number) (.numeral cause)
  | _ => .fault (e.fault number)

end LineError

variable {α : Type}

/-- The instruction that a line spells. The number of words is judged first, then the name, then
the argument. A missing argument is zero. -/
def assembleLine (r : Registry α) (line : Bytes) : Except LineError Instruction :=
  match split line (ascii ' ') with
  | [] => .error .empty
  | [name] =>
    match r.lookup? name with
    | none => .error (.unknown name)
    | some id => .ok ⟨Int64.ofNat id, 0⟩
  | [name, argument] =>
    match r.lookup? name with
    | none => .error (.unknown name)
    | some id =>
      match Numeral.parse argument with
      | .error cause => .error (.badArgument name cause)
      | .ok arg => .ok ⟨Int64.ofNat id, arg⟩
  | _ => .error (.tooManyWords line)

/-- The lines of a program text. -/
def programLines (program : Bytes) : List Bytes := split program 10

/-- Assembles lines, the first of which has the given number, up to the first that is wrong. -/
def assembleLines (r : Registry α) : (number : Nat) → List Bytes → Except Failure (List Instruction)
  | _, [] => .ok []
  | number, line :: rest =>
    match assembleLine r line with
    | .error e => .error (e.failure number)
    | .ok i => (assembleLines r (number + 1) rest).map (i :: ·)

/-- The code of a program text, or the fault of its first wrong line. -/
def assemble (r : Registry α) (program : Bytes) : Except Failure Code :=
  (assembleLines r 1 (programLines program)).map List.toArray

/-- The faults of lines, the first of which has the given number. -/
def validateLines (r : Registry α) : (number : Nat) → List Bytes → List Failure
  | _, [] => []
  | number, line :: rest =>
    match assembleLine r line with
    | .error e => e.failure number :: validateLines r (number + 1) rest
    | .ok _ => validateLines r (number + 1) rest

/-- The faults of all wrong lines of a program text, in order. -/
def validate (r : Registry α) (program : Bytes) : List Failure :=
  validateLines r 1 (programLines program)

end StackMachine
