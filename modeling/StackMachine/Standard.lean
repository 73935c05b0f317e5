import StackMachine.Engine

/-!
# The standard instructions

Thirteen instructions are registered in every ordinary machine, under the numbers 0 to 12. Each
either does its work or fails without having changed anything.
-/

namespace StackMachine

open Text

/-- The standard instructions, in the order of their numbers. -/
inductive Standard where
  | print
  | loadConst
  | exit
  | pop
  | add
  | div
  | eq
  | neq
  | dup
  | jmp
  | jmpz
  | write
  | writeChar
  deriving DecidableEq, Repr

namespace Standard

/-- All standard instructions in order. -/
def all : List Standard :=
  [print, loadConst, exit, pop, add, div, eq, neq, dup, jmp, jmpz, write, writeChar]

/-- The name of a standard instruction. -/
def name : Standard → String
  | print => "PRINT"
  | loadConst => "LOAD_CONST"
  | exit => "EXIT"
  | pop => "POP"
  | add => "ADD"
  | div => "DIV"
  | eq => "EQ"
  | neq => "NEQ"
  | dup => "DUP"
  | jmp => "JMP"
  | jmpz => "JMPZ"
  | write => "WRITE"
  | writeChar => "WRITE_CHAR"

/-- The description of a standard instruction. -/
def doc : Standard → String
  | print => "print top of stack to stdout (non-destructive)"
  | loadConst => "push the argument"
  | exit => "halt; the top of stack is the result"
  | pop => "discard top of stack"
  | add => "pop a, pop b, push a+b"
  | div => "pop a, pop b, push b/a; a == 0 faults"
  | eq => "pop a, pop b, push 1 if a == b else 0"
  | neq => "pop a, pop b, push 0 if a == b else 1"
  | dup => "push a copy of top of stack"
  | jmp => "jump to the absolute index given as argument"
  | jmpz => "pop a; jump to the argument index if a == 0"
  | write => "append top of stack in decimal to output (non-destructive)"
  | writeChar => "append top of stack as a character code to output (non-destructive)"

/-- What a standard instruction says when the stack is too short for it. -/
def shortage : Standard → String
  | print => "no return value when printing"
  | exit => "no return value when exiting"
  | pop => "not enough stack when popping"
  | add => "not enough stack when adding"
  | div => "not enough stack when dividing"
  | eq | neq => "not enough stack when comparing"
  | dup => "not enough value when duplicating"
  | jmpz => "not enough stack when consuming"
  | write | writeChar => "no value when appending"
  | loadConst | jmp => ""

/-- The truth of a comparison as a value. -/
def truth (b : Bool) : Value := if b then 1 else 0

variable {α : Type}

/-- The failure of a standard instruction that finds too little on the stack. -/
def short (i : Standard) (s : State α) : Verdict × State α :=
  (.failed (s.stackFail i.name i.shortage), s)

/-- The failure of a division by zero. -/
def divisionByZero (s : State α) : Failure :=
  .fault { kind := .divByZero, msg := utf8 "div by zero", op := utf8 div.name, pc := s.pc }

/-- Carries out an instruction that reads the top of the stack and leaves it there. -/
def reading (i : Standard) (s : State α) (act : Value → State α) : Verdict × State α :=
  match s.peek? with
  | none => i.short s
  | some a => (.more, act a)

/-- Carries out an instruction that takes the top of the stack. -/
def taking (i : Standard) (s : State α) (act : Value → State α → State α) : Verdict × State α :=
  match s.pop? with
  | none => i.short s
  | some (a, s) => (.more, act a s)

/-- Carries out an instruction that replaces the top of the stack and the value beneath it by one
value. -/
def combining (i : Standard) (s : State α) (op : Value → Value → Value) : Verdict × State α :=
  match s.pop2? with
  | none => i.short s
  | some (a, b, s) => (.more, s.push (op a b))

/-- Carries out a standard instruction. -/
def exec (i : Standard) (arg : Value) (s : State α) : Verdict × State α :=
  match i with
  | print => i.reading s fun a => s.print (line (word a))
  | loadConst => (.more, s.push arg)
  | exit => if s.depth = 0 then i.short s else (.halt, s)
  | pop => i.taking s fun _ s => s
  | add => i.combining s fun a b => a + b
  | div =>
    if s.depth < 2 then i.short s
    -- before anything is taken, so that both values stay where they are
    else if s.peek? = some 0 then (.failed (divisionByZero s), s)
    else i.combining s fun a b => b / a
  | eq => i.combining s fun a b => truth (a == b)
  | neq => i.combining s fun a b => truth (a != b)
  | dup => i.reading s s.push
  | jmp => (.more, { s with pc := arg })
  | jmpz => i.taking s fun a s => if a = 0 then { s with pc := arg } else s
  | write => i.reading s fun a => s.write (word a)
  | writeChar => i.reading s s.writeChar

instance : Action Standard := ⟨exec⟩

end Standard

/-- Registers the standard instructions with their descriptions; `embed` says how they are
described in the registry. -/
def Registry.addStandard {α : Type} (embed : Standard → α) (r : Registry α) : Registry α :=
  Standard.all.foldl
    (fun r i => (r.push (utf8 i.name) (embed i)).describe (utf8 i.name) (utf8 i.doc)) r

/-- The registry of the standard instructions. -/
def Registry.standard : Registry Standard := Registry.addStandard id .empty

end StackMachine
