import StackMachine.Standard

/-!
# What a standard instruction can do

A standard instruction counts the values on the stack, reads its top and takes values off it one by
one. `Standard.effect` says for each instruction at once what this comes to.

An instruction is given the whole state, but a standard one looks only at the program counter and
the stack. `Standard.exec_eq_amend` says this once for all thirteen: carrying an instruction out on
a state is carrying it out on the state's bare form and then making the same changes to the state
itself. Everything that instructions leave alone, and every independence of one part of the state
from another, follows from this equation without a case split.

`Standard.exec_cases` is the other half: which verdict an instruction comes to, by the number of
values it finds on the stack.
-/

namespace StackMachine

open Text

/-! ## Transcripts put after one another -/

namespace Transcript

instance : Append Transcript := ⟨fun a b => ⟨b.pieces ++ a.pieces⟩⟩

theorem append_def (a b : Transcript) : a ++ b = ⟨b.pieces ++ a.pieces⟩ := rfl

@[simp]
theorem toBytes_append (a b : Transcript) : (a ++ b).toBytes = a.toBytes ++ b.toBytes := by
  simp [append_def, toBytes]

@[simp]
theorem append_empty (a : Transcript) : a ++ ({} : Transcript) = a := rfl

theorem append_assoc (a b c : Transcript) : a ++ b ++ c = a ++ (b ++ c) := by
  simp [append_def]

end Transcript

/-! ## Looking only at the program counter and the stack -/

namespace State

variable {α : Type}

/-- What an instruction sees of a state: the program counter and the stack, with nothing printed or
written yet. -/
def bare (s : State α) : State α := { pc := s.pc, stack := s.stack, registry := .empty }

/-- A state after the changes that led from its bare form to `d`. -/
def amend (s d : State α) : State α :=
  { s with
    pc := d.pc, stack := d.stack
    stdout := s.stdout ++ d.stdout, output := s.output ++ d.output }

end State

namespace Standard

variable {α : Type}

/-- What an instruction does, read off the stack: `a` is its top and `b` the value beneath. -/
def effect (i : Standard) (arg : Value) (s : State α) : Verdict × State α :=
  match i, s.stack with
  | print, a :: _ => (.more, s.print (line (word a)))
  | loadConst, _ => (.more, s.push arg)
  | exit, _ :: _ => (.halt, s)
  | pop, _ :: rest => (.more, { s with stack := rest })
  | add, a :: b :: rest => (.more, { s with stack := (a + b) :: rest })
  | div, a :: b :: rest =>
    if a = 0 then (.failed (divisionByZero s), s)
    else (.more, { s with stack := (b / a) :: rest })
  | eq, a :: b :: rest => (.more, { s with stack := truth (a == b) :: rest })
  | neq, a :: b :: rest => (.more, { s with stack := truth (a != b) :: rest })
  | dup, a :: _ => (.more, s.push a)
  | jmp, _ => (.more, { s with pc := arg })
  | jmpz, a :: rest =>
    (.more, { s with stack := rest, pc := if a = 0 then arg else s.pc })
  | write, a :: _ => (.more, s.write (word a))
  | writeChar, a :: _ => (.more, s.writeChar a)
  | _, _ => i.short s

/-- Counting, reading and taking the values one by one comes to what is read off the stack. -/
theorem exec_eq_effect (i : Standard) (arg : Value) (s : State α) :
    exec i arg s = effect i arg s := by
  obtain ⟨pc, stack, debug, registry, stdout, maxSteps, steps, output, entered, interrupt⟩ := s
  rcases stack with _ | ⟨a, _ | ⟨b, rest⟩⟩ <;> cases i <;> try rfl
  -- a division and a conditional jump still depend on the top of the stack
  case cons.nil.jmpz | cons.cons.jmpz =>
    by_cases ha : a = 0 <;> simp [exec, effect, taking, State.pop?, ha]
  case cons.cons.div =>
    have htwo : ¬ rest.length + 1 + 1 < 2 := by omega
    by_cases ha : a = 0 <;>
      simp [exec, effect, combining, State.depth, State.peek?, State.pop?, State.pop2?, State.push,
        htwo, ha]

/-- An instruction is carried out on a state as on its bare form. -/
theorem exec_eq_amend (i : Standard) (arg : Value) (s : State α) :
    exec i arg s = ((exec i arg s.bare).1, s.amend (exec i arg s.bare).2) := by
  rw [exec_eq_effect, exec_eq_effect]
  obtain ⟨pc, stack, debug, registry, stdout, maxSteps, steps, output, entered, interrupt⟩ := s
  rcases stack with _ | ⟨a, _ | ⟨b, rest⟩⟩ <;> cases i <;> try rfl
  -- a division still depends on its divisor
  simp only [effect, State.bare]
  split <;> rfl

/-! ## Verdicts -/

/-- How many values an instruction needs on the stack. -/
def operands : Standard → Nat
  | loadConst | jmp => 0
  | print | exit | pop | dup | jmpz | write | writeChar => 1
  | add | div | eq | neq => 2

/-- What becomes of an instruction that is carried out on `s`: it goes on, it halts, it finds too
little on the stack, or it would divide by zero. Only the first changes anything. -/
theorem exec_cases (i : Standard) (arg : Value) (s : State α) :
    ((exec i arg s).1 = .more ∧ i ≠ exit ∧ i.operands ≤ s.stack.length) ∨
    (exec i arg s = (.halt, s) ∧ i = exit ∧ s.stack ≠ []) ∨
    (exec i arg s = i.short s ∧ s.stack.length < i.operands) ∨
    (exec i arg s = (.failed (divisionByZero s), s) ∧ i = div ∧
      2 ≤ s.stack.length ∧ s.stack.head? = some 0) := by
  rw [exec_eq_effect]
  obtain ⟨pc, stack, debug, registry, stdout, maxSteps, steps, output, entered, interrupt⟩ := s
  rcases stack with _ | ⟨a, _ | ⟨b, rest⟩⟩ <;> cases i <;> simp [effect, operands]
  by_cases ha : a = 0 <;> simp [ha]

end Standard

/-! ## The standard registry -/

theorem Registry.standard_entries :
    Registry.standard.entries = (Standard.all.map fun a => ⟨utf8 a.name, a⟩).toArray := rfl

/-- A number without an action has no name. -/
theorem Tables.name?_of_action?_eq_none {α : Type} {t : Tables α} {id : Int64}
    (h : t.action? id = none) : t.name? id = none := by
  rw [action?, Option.map_eq_none_iff] at h
  rw [name?, h, Option.map_none]

/-- A standard instruction is registered under its own name. -/
theorem Registry.standard_name? {id : Int64} {a : Standard}
    (h : Registry.standard.action? id = some a) :
    Registry.standard.name? id = some (utf8 a.name) := by
  obtain ⟨e, he, rfl⟩ := Option.map_eq_some_iff.mp h
  have hmem : e ∈ Registry.standard.entries := by
    rw [Tables.entry?] at he
    split at he
    · cases he
    · exact Array.mem_of_getElem? he
  rw [Registry.standard_entries, List.mem_toArray, List.mem_map] at hmem
  obtain ⟨b, -, rfl⟩ := hmem
  rw [Tables.name?, he]
  rfl

end StackMachine
