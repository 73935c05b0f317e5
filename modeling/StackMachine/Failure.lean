import StackMachine.Text.Numeral

/-!
# Faults and failures

A *fault* is an error of the machine's own: a line that does not assemble, or an instruction that
cannot be carried out. A *failure* is any reason for which assembling or running stops; it may be a
fault, an abort from outside, the step limit, or a plain text, and it may wrap another failure.
A failure is therefore a chain, read from the outside in, and questions about it ("which fault is
this?", "was it the step limit?") look along the chain.
-/

namespace StackMachine

open Text

/-- The class of a fault, by its number. Four numbers have names. -/
structure FaultKind where
  code : Int64
  deriving DecidableEq, Repr

namespace FaultKind

/-- A line that is not an instruction, or an instruction no registry entry answers to. -/
def invalidInstruction : FaultKind := ⟨1⟩

/-- The program counter left the code. -/
def segfault : FaultKind := ⟨2⟩

/-- The stack holds fewer values than an instruction needs. -/
def stackFail : FaultKind := ⟨3⟩

/-- A division by zero. -/
def divByZero : FaultKind := ⟨4⟩

/-- The named kinds, by number. -/
def named : List (FaultKind × Bytes) :=
  [(invalidInstruction, utf8 "invalid_instruction"), (segfault, utf8 "vm_segfault"),
    (stackFail, utf8 "vm_stackfail"), (divByZero, utf8 "div_by_zero")]

/-- The name of a kind; a kind without one shows its number. -/
def name (k : FaultKind) : Bytes :=
  match named.find? (·.1 = k) with
  | some (_, n) => n
  | none => utf8 "fault(" ++ word k.code ++ utf8 ")"

/-- The kind that has a given name. -/
def ofName? (n : Bytes) : Option FaultKind :=
  (named.find? (·.2 = n)).map (·.1)

end FaultKind

/-- A fault: its kind, what happened, and where. -/
structure Fault where
  kind : FaultKind
  msg : Bytes
  /-- The instruction that raised the fault, when there is one. -/
  op : Bytes := []
  /-- The program counter when the fault was found, or a negative number when nothing ran. -/
  pc : Int64
  /-- The line of the program text, from one, or zero when no line is to blame. -/
  line : Int64 := 0
  deriving DecidableEq, Repr

/-- The wording of a fault without what caused it. -/
def Fault.message (f : Fault) : Bytes :=
  f.kind.name ++ utf8 ": " ++ f.msg
    ++ (if 0 < f.line then utf8 " (line " ++ word f.line ++ utf8 ")" else [])
    ++ (if 0 ≤ f.pc then utf8 " pc=" ++ word f.pc else [])

/-- A request from outside to stop a run. -/
inductive Interrupt where
  | canceled
  | deadline
  deriving DecidableEq, Repr

/-- The wording of an interrupt. -/
def Interrupt.message : Interrupt → Bytes
  | .canceled => utf8 "context canceled"
  | .deadline => utf8 "context deadline exceeded"

/-- Why assembling or running stopped. -/
inductive Failure where
  /-- A fault that nothing else caused. -/
  | fault (f : Fault)
  /-- A fault, and the failure that caused it. -/
  | faultBecause (f : Fault) (cause : Failure)
  /-- The bare kind of a fault. -/
  | kind (k : FaultKind)
  /-- A numeral that could not be read. -/
  | numeral (e : Numeral.Error)
  /-- Any other reason, by its wording. -/
  | text (msg : Bytes)
  /-- The run was asked to stop. -/
  | interrupt (i : Interrupt)
  /-- The run used up its steps. -/
  | stepLimit
  /-- A failure with words put before and after its own. -/
  | wrap (before after : Bytes) (inner : Failure)
  deriving DecidableEq, Repr

namespace Failure

/-- The wording of a failure. -/
def message : Failure → Bytes
  | fault f => f.message
  | faultBecause f cause => f.message ++ utf8 ": " ++ cause.message
  | kind k => k.name
  | numeral e => e.message
  | text msg => msg
  | interrupt i => i.message
  | stepLimit => utf8 "step limit exceeded"
  | wrap before after inner => before ++ inner.message ++ after

/-- The outermost fault of a failure, with its cause. -/
def fault? : Failure → Option (Fault × Option Failure)
  | fault f => some (f, none)
  | faultBecause f cause => some (f, some cause)
  | wrap _ _ inner => inner.fault?
  | _ => none

/-- The kind of the outermost fault. -/
def kind? (e : Failure) : Option FaultKind := e.fault?.map (·.1.kind)

/-- Whether a failure is, or somewhere wraps, a fault of a kind or that kind itself. -/
def hasKind (k : FaultKind) : Failure → Bool
  | fault f => f.kind = k
  | faultBecause f cause => f.kind = k || cause.hasKind k
  | kind j => j = k
  | wrap _ _ inner => inner.hasKind k
  | _ => false

/-- Whether a failure is, or somewhere wraps, the step limit. -/
def hasStepLimit : Failure → Bool
  | stepLimit => true
  | faultBecause _ cause => cause.hasStepLimit
  | wrap _ _ inner => inner.hasStepLimit
  | _ => false

/-- Whether a failure is, or somewhere wraps, an interrupt. -/
def hasInterrupt : Failure → Bool
  | interrupt _ => true
  | faultBecause _ cause => cause.hasInterrupt
  | wrap _ _ inner => inner.hasInterrupt
  | _ => false

end Failure

end StackMachine
