import StackMachine.Assembly
import StackMachine.Editor.Cursor
import StackMachine.Text.Upper
import StackMachine.Wire.Message

/-!
# Help for editors

What a registry has to say about a program that is being written: the instructions a word could
become, what an instruction does, and what is wrong with each line.
-/

namespace StackMachine.Editor

open Text

/-- What messages of the editor support call their source. -/
def serverName : Bytes := utf8 "stackvm-lsp"

/-- An instruction that completes what was typed. -/
structure Completion where
  label : Bytes
  /-- The number that the name stands for. -/
  id : Nat
  /-- What the instruction does, empty when nobody said. -/
  documentation : Bytes
  deriving DecidableEq, Repr

/-- The remark shown beside a completion. -/
def Completion.detail (c : Completion) : Bytes := utf8 "opcode " ++ decimal c.id

/-- The bound names that begin with what was typed, in upper case, in the order of their numbers. -/
def complete {α : Type} (r : Registry α) (typed : Bytes) : List Completion :=
  (r.names.filter fun name => (dropPrefix? (upper typed) name).isSome).map fun name =>
    { label := name, id := (r.lookup? name).getD 0, documentation := r.doc name }

/-- What is shown for a word that names an instruction. -/
def hover? {α : Type} (r : Registry α) (word : Bytes) : Option Bytes := do
  let id ← r.lookup? word
  let doc := r.doc word
  some (utf8 "**" ++ word ++ utf8 "** (opcode " ++ decimal id ++ utf8 ")"
    ++ (if doc = [] then [] else utf8 "\n\n" ++ doc))

/-- A remark on a whole line. Places are told to editors in words of 32 bits. -/
structure Remark where
  /-- The line, from zero. -/
  line : UInt32
  /-- The bytes of the line. -/
  width : UInt32
  message : Bytes
  deriving DecidableEq, Repr

/-- Where a remark begins: before the first byte of its line. -/
def Remark.start (r : Remark) : Position := ⟨r.line.toNat, 0⟩

/-- Where a remark ends: after the last byte of its line. -/
def Remark.stop (r : Remark) : Position := ⟨r.line.toNat, r.width.toNat⟩

/-- The remark that reports a fault on a line of a document. Faults without a line are not
reported. -/
def remark? (lines : List Bytes) (e : Failure) : Option Remark := do
  let (f, cause) ← e.fault?
  if f.line < 1 then none
  else
    let line := (f.line - 1).toInt.toNat
    let width := ((lines[line]?).map (·.length)).getD 0
    some ⟨.ofNat line, .ofNat width, Wire.faultMessage f cause⟩

/-- What is wrong with the lines of a document. -/
def diagnose {α : Type} (r : Registry α) (text : Bytes) : List Remark :=
  (validate r text).filterMap (remark? (documentLines text))

end StackMachine.Editor
