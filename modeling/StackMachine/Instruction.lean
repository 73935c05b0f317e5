import StackMachine.Text.Bytes

/-!
# Values, instructions and code

The machine computes with signed 64-bit words. An instruction names an operation by its number in
a registry and carries one word as its argument; code is a sequence of instructions, addressed from
zero.
-/

namespace StackMachine

/-- What the stack holds. Arithmetic wraps at 64 bits. -/
abbrev Value := Int64

/-- An assembled instruction: the number of an operation and its argument. -/
structure Instruction where
  op : Int64
  arg : Value
  deriving DecidableEq, Repr

/-- The two numbers of an instruction. -/
def Instruction.toBytes (i : Instruction) : Bytes :=
  Text.word i.op ++ Text.utf8 " " ++ Text.word i.arg

/-- An assembled program. -/
abbrev Code := Array Instruction

/-- The instruction at an address, if the address lies in the code. -/
def Code.fetch? (code : Code) (pc : Int64) : Option Instruction :=
  if pc < 0 then none else code[pc.toNatClampNeg]?

end StackMachine
