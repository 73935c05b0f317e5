import StackMachine.Proofs.Instructions

/-!
# Entering a run

The first run on a state in debug mode lists the code before it begins. `enter_eq` says what
entering does to any state: it prints a text that depends on the registry, the code and the two
flags only, turns debugging off when the code holds an operation number the registry does not know,
and marks the state as entered. A state that was entered before is left as it is.
-/

namespace StackMachine

open Text

variable {α : Type}

/-- The registry knows every operation number of the instructions. -/
def Registry.knows (r : Registry α) (is : List Instruction) : Bool :=
  is.all fun i => (r.name? i.op).isSome

/-- An instruction as the listing on entry shows it. -/
def Registry.listedLine (r : Registry α) (i : Instruction) : Bytes :=
  (r.name? i.op).getD [] ++ utf8 " " ++ word i.arg

/-- What the listing on entry prints for instructions. -/
def Registry.listed (r : Registry α) : List Instruction → Transcript
  | [] => {}
  | i :: rest =>
    match r.name? i.op with
    | some _ => ⟨[line (r.listedLine i)]⟩ ++ r.listed rest
    | none => ⟨[utf8 "could not disassemble - op_id unknown...\nturning off debug mode.\n"]⟩

/-- Where the registry knows all instructions, the listing on entry has one line for each. -/
theorem listed_of_knows {r : Registry α} {is : List Instruction} (h : r.knows is = true) :
    (r.listed is).toBytes = (is.map r.listedLine).flatMap line := by
  induction is with
  | nil => rfl
  | cons i rest ih =>
    rw [Registry.knows, List.all_cons, Bool.and_eq_true] at h
    obtain ⟨name, hname⟩ := Option.isSome_iff_exists.mp h.1
    rw [Registry.listed, hname]
    dsimp only
    rw [Transcript.toBytes_append, ih h.2, List.map_cons, List.flatMap_cons]
    simp [Transcript.toBytes]

namespace State

theorem printInstructions_eq (is : List Instruction) (s : State α) :
    s.printInstructions is =
      { s with
        stdout := s.stdout ++ s.registry.listed is, debug := s.debug && s.registry.knows is } := by
  induction is generalizing s with
  | nil =>
    rw [printInstructions, Registry.listed, Registry.knows, List.all_nil, Bool.and_true]
    rfl
  | cons i rest ih =>
    rw [printInstructions, Registry.listed, Registry.knows, List.all_cons]
    cases hname : s.registry.name? i.op with
    | none =>
      rw [Option.isSome_none, Bool.false_and, Bool.and_false]
      rfl
    | some name =>
      rw [Option.isSome_some, Bool.true_and, ← Transcript.append_assoc]
      dsimp only
      rw [ih, Registry.listedLine, hname]
      rfl

/-- What is printed on entry. -/
def greeting (code : Code) (s : State α) : Transcript :=
  if s.debug && !s.entered then
    (⟨[utf8 "=== running vm ======================\ndisassembly of run code:\n"]⟩ : Transcript)
      ++ s.registry.listed code.toList ++ ⟨[utf8 "=== end of disassembly\n\n"]⟩
  else {}

/-- What entering a run does to a state. -/
theorem enter_eq (code : Code) (s : State α) :
    s.enter code =
      { s with
        stdout := s.stdout ++ s.greeting code
        debug := s.debug && (s.entered || s.registry.knows code.toList)
        entered := true } := by
  rw [enter, greeting]
  cases hdebug : s.debug <;> cases hentered : s.entered
  · simp [hdebug]
  · simp [hdebug]
  · simp only [Bool.not_false, Bool.and_self, if_true, Bool.true_and, Bool.false_or]
    rw [printListing, printInstructions_eq, ← Transcript.append_assoc, ← Transcript.append_assoc]
    simp only [print, hdebug, Bool.true_and]
    rfl
  · simp [hdebug]

theorem enter_of_entered {code : Code} {s : State α} (h : s.entered = true) : s.enter code = s := by
  rw [enter, h, Bool.not_true, Bool.and_false]
  obtain ⟨pc, stack, debug, registry, stdout, maxSteps, steps, output, entered, interrupt⟩ := s
  subst h
  rfl

end State

end StackMachine
