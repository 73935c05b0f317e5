import StackMachine.Proofs.Dispatch
import StackMachine.Proofs.Entry

/-!
# What a run does not see

A run works at the top of the stack and at the end of the output. `State.above` puts values beneath
the stack of a state and a text in front of its output. As long as an instruction has its operands,
it does the same above other values and behind other text (`Standard.exec_above`), and hence so does
a whole run (`exec_run_above`).

The exception are runs that fail because the stack is too short, since what lies beneath may be just
what they lacked. Two runs side by side part there; `loop_map_or` compares them up to such an end.
-/

namespace StackMachine

open Text

namespace State

variable {α : Type}

/-- The state with values beneath its stack and a text in front of its output. The top of a stack
comes first, so what lies beneath comes last. -/
def above (base : List Value) (earlier : Bytes) (s : State α) : State α :=
  { s with stack := s.stack ++ base, output := (⟨[earlier]⟩ : Transcript) ++ s.output }

theorem above_output (base : List Value) (earlier : Bytes) (s : State α) :
    (s.above base earlier).output.toBytes = earlier ++ s.output.toBytes := by
  rw [above, Transcript.toBytes_append]
  simp [Transcript.toBytes]

end State

/-! ## Instructions -/

/-- A failure that says that the stack is too short. -/
def Failure.IsShortage (e : Failure) : Prop := e.kind? = some .stackFail

/-- An ending that says that the stack is too short. -/
def Ending.IsShortage (ending : Ending) : Prop := ∃ e, ending = .failure e ∧ e.IsShortage

/-- A verdict that says that the stack is too short. -/
def Verdict.IsShortage (v : Verdict) : Prop := ∃ e, v = .failed e ∧ e.IsShortage

namespace Standard

variable {α : Type}

theorem exists_two {stack : List Value} (h : 2 ≤ stack.length) :
    ∃ a b rest, stack = a :: b :: rest := by
  obtain ⟨a, rest, rfl⟩ := List.exists_cons_of_length_pos (Nat.lt_of_succ_lt h)
  obtain ⟨b, rest, rfl⟩ := List.exists_cons_of_length_pos (Nat.lt_of_succ_lt_succ h)
  exact ⟨a, b, rest, rfl⟩

/-- An instruction that has its operands does the same above other values and behind other text. -/
theorem exec_above (base : List Value) (earlier : Bytes) (i : Standard) (arg : Value) {s : State α}
    (h : i.operands ≤ s.stack.length) :
    exec i arg (s.above base earlier) =
      ((exec i arg s).1, (exec i arg s).2.above base earlier) := by
  rw [exec_eq_effect, exec_eq_effect]
  obtain ⟨pc, stack, debug, registry, stdout, maxSteps, steps, output, entered, interrupt⟩ := s
  cases i with
  | loadConst | jmp => rfl
  | print | exit | pop | dup | jmpz | write | writeChar =>
    obtain ⟨a, rest, rfl⟩ := List.exists_cons_of_length_pos (l := stack) h
    rfl
  | add | eq | neq =>
    have htwo : 2 ≤ stack.length := h
    obtain ⟨a, b, rest, rfl⟩ := exists_two htwo
    rfl
  | div =>
    have htwo : 2 ≤ stack.length := h
    obtain ⟨a, b, rest, rfl⟩ := exists_two htwo
    -- the divisor decides, and it is the top of both stacks
    simp only [effect, State.above, List.cons_append]
    split <;> rfl

/-- An instruction finds its operands or says that they are missing. -/
theorem operands_le_or_isShortage (i : Standard) (arg : Value) (s : State α) :
    i.operands ≤ s.stack.length ∨ (exec i arg s).1.IsShortage := by
  rcases i.exec_cases arg s with
    ⟨-, -, hle⟩ | ⟨-, rfl, hne⟩ | ⟨hshort, -⟩ | ⟨-, rfl, hle, -⟩
  · exact .inl hle
  · exact .inl (List.length_pos_iff.mpr hne)
  · rw [hshort]
    exact .inr ⟨_, rfl, rfl⟩
  · exact .inl hle

end Standard

/-! ## Turns -/

namespace State

variable {α : Type} (base : List Value) (earlier : Bytes)

theorem hear_above (q : Option Interrupt) (s : State α) :
    (s.above base earlier).hear q = (s.hear q).above base earlier := rfl

/-- The head of the loop looks neither at the stack nor at the output. -/
theorem ready_above (code : Code) (s : State α) :
    (s.above base earlier).ready code = s.ready code := rfl

theorem enter_above (code : Code) (s : State α) :
    (s.above base earlier).enter code = (s.enter code).above base earlier := by
  rw [enter_eq, enter_eq]
  rfl

/-- A dispatch says that the stack is too short, or does the same above other values and behind
other text. -/
theorem dispatch_above (i : Instruction) (s : State Standard) :
    (s.dispatch i).1.IsShortage ∨
      (s.above base earlier).dispatch i =
        ((s.dispatch i).1, (s.dispatch i).2.above base earlier) := by
  have htrace : ((s.above base earlier).trace i).advance =
      (s.trace i).advance.above base earlier := by
    rw [trace_eq, trace_eq]
    rfl
  simp only [dispatch, htrace]
  have hregistry : ((s.trace i).advance.above base earlier).registry =
      (s.trace i).advance.registry := rfl
  rw [hregistry]
  cases (s.trace i).advance.registry.action? i.op with
  | none => exact .inr rfl
  | some a =>
    rcases a.operands_le_or_isShortage i.arg (s.trace i).advance with hle | hshort
    · exact .inr (a.exec_above base earlier i.arg hle)
    · exact .inl hshort

/-- After the same verdict the loop goes on or ends alike, unless it halts without a value to
return. -/
theorem follow_above (v : Verdict) (s : State α) :
    (∃ x, follow (v, s) = .inr x ∧ x.1.IsShortage) ∨
      follow (v, s.above base earlier) =
        (follow (v, s)).map (above base earlier) (Prod.map id (above base earlier)) := by
  cases v with
  | more => exact .inr rfl
  | halt =>
    -- the top of the stack is the value of the run, and an empty one would show a value from
    -- beneath
    cases hstack : s.stack with
    | nil =>
      refine .inl ⟨_, rfl, s.stackFail "" "no return value at halt", ?_, rfl⟩
      show s.haltEnding = _
      rw [haltEnding, peek?, hstack]
      rfl
    | cons a rest =>
      right
      have hending : (s.above base earlier).haltEnding = s.haltEnding := by
        rw [haltEnding, haltEnding, peek?, peek?, above, hstack]
        rfl
      rw [follow, follow, hending]
      rfl
  | failed e => exact .inr rfl
  | crashed m => exact .inr rfl

/-- A turn ends because the stack is too short, or does the same above other values and behind other
text. -/
theorem turn_above (code : Code) (q : Option Interrupt) (s : State Standard) :
    (∃ x, s.turn code q = .inr x ∧ x.1.IsShortage) ∨
      (s.above base earlier).turn code q =
        (s.turn code q).map (above base earlier) (Prod.map id (above base earlier)) := by
  have hready := ready_above base earlier code (s.hear q)
  rw [← hear_above] at hready
  cases h : (s.hear q).ready code with
  | error e =>
    right
    rw [turn_of_error h, turn_of_error (hready.trans h)]
    rfl
  | ok i =>
    rw [turn_of_ok h, turn_of_ok (hready.trans h), hear_above]
    rcases dispatch_above base earlier i (s.hear q) with ⟨e, hfailed, hshort⟩ | hsame
    · left
      refine ⟨(.failure e, ((s.hear q).dispatch i).2), ?_, e, rfl, hshort⟩
      generalize (s.hear q).dispatch i = x at hfailed ⊢
      obtain ⟨v, t⟩ := x
      obtain rfl : v = .failed e := hfailed
      rfl
    · rw [hsame]
      exact follow_above base earlier _ _

/-! ## Runs -/

/-- A change to the state that every turn carries along is carried along by the run, unless it comes
to an end that is excepted. -/
theorem loop_map_or [Action α] {code : Code} {signals : Signals} {f : State α → State α}
    {P : Ending × State α → Prop}
    (hf : ∀ q s, (∃ x, s.turn code q = .inr x ∧ P x) ∨
      (f s).turn code q = (s.turn code q).map f (Prod.map id f))
    (fuel n : Nat) (s : State α) :
    (∃ x, loop code signals fuel n s = some x ∧ P x) ∨
      loop code signals fuel n (f s) = (loop code signals fuel n s).map (Prod.map id f) := by
  induction fuel generalizing n s with
  | zero => exact .inr rfl
  | succ fuel ih =>
    rw [loop_succ, loop_succ]
    rcases hf (signals n) s with ⟨x, hx, hP⟩ | hsame
    · rw [hx]
      exact .inl ⟨x, rfl, hP⟩
    · rw [hsame]
      cases s.turn code (signals n) with
      | inl t => exact ih (n + 1) t
      | inr x => exact .inr rfl

/-- A run ends because the stack is too short, or does the same above other values and behind other
text. -/
theorem run_above (code : Code) (signals : Signals) (fuel : Nat) (s : State Standard) :
    (∃ x, s.run code signals fuel = some x ∧ x.1.IsShortage) ∨
      (s.above base earlier).run code signals fuel =
        (s.run code signals fuel).map (Prod.map id (above base earlier)) := by
  rw [run, run, enter_above]
  exact loop_map_or (fun q s => turn_above base earlier code q s) fuel 0 (s.enter code)

end State

/-- **Runs do not see beneath their stack.** An instruction that has its operands does the same
whatever lies beneath them and whatever was written before. So does a run that does not fail for
want of values: with other values beneath the stack and other text in front of the output it ends
with the same value or failure, at the same program counter, after as many steps, and prints the
same; it leaves the values where they are and writes behind the text. -/
theorem exec_run_above (base : List Value) (earlier : Bytes) :
    (∀ (i : Standard) (arg : Value) (s : State Standard), i.operands ≤ s.stack.length →
      i.exec arg (s.above base earlier) = ((i.exec arg s).1, (i.exec arg s).2.above base earlier)) ∧
    ∀ (code : Code) (signals : Signals) (fuel : Nat) (s t : State Standard) (ending : Ending),
      s.run code signals fuel = some (ending, t) → ¬ ending.IsShortage →
        ∃ t', (s.above base earlier).run code signals fuel = some (ending, t') ∧
          t'.pc = t.pc ∧ t'.steps = t.steps ∧ t'.stdout.toBytes = t.stdout.toBytes ∧
          t'.stack = t.stack ++ base ∧ t'.output.toBytes = earlier ++ t.output.toBytes ∧
          t' = t.above base earlier := by
  refine ⟨fun i arg s h => i.exec_above base earlier arg h, ?_⟩
  intro code signals fuel s t ending hrun henough
  refine ⟨t.above base earlier, ?_, rfl, rfl, rfl, rfl, State.above_output _ _ t, rfl⟩
  rcases State.run_above base earlier code signals fuel s with ⟨x, hx, hshort⟩ | hsame
  · rw [hrun] at hx
    obtain rfl := Option.some.inj hx
    exact absurd hshort henough
  · rw [hsame, hrun]
    rfl

/-- A division by zero, with its operands on top of two other values and its output behind other
text. -/
theorem exec_run_above_divByZero :
    let code : Code := #[⟨12, 0⟩, ⟨1, 0⟩, ⟨5, 0⟩]
    let s : State Standard :=
      { registry := .standard, debug := true, stack := [57], output := ⟨[utf8 "a"]⟩ }
    ∃ e t t', s.run code .none 3 = some (.failure e, t) ∧ e.kind? = some .divByZero ∧
      t.stack = [0, 57] ∧ t.output.toBytes = utf8 "a9" ∧
      (s.above [4, 5] (utf8 "b")).run code .none 3 = some (.failure e, t') ∧
      t'.stdout.toBytes = t.stdout.toBytes ∧ t'.stack = [0, 57, 4, 5] ∧
      t'.output.toBytes = utf8 "ba9" := by
  obtain ⟨e, t, hrun, hkind, hstack, houtput⟩ : ∃ e t,
      ({ registry := .standard, debug := true, stack := [57], output := ⟨[utf8 "a"]⟩ } : State
        Standard).run
        #[⟨12, 0⟩, ⟨1, 0⟩, ⟨5, 0⟩] .none 3 = some (.failure e, t) ∧
      e.kind? = some .divByZero ∧ t.stack = [0, 57] ∧ t.output.toBytes = utf8 "a9" :=
    ⟨_, _, rfl, rfl, rfl, rfl⟩
  have henough : ¬ Ending.IsShortage (.failure e) := by
    rintro ⟨e', he, hshort⟩
    obtain rfl := Ending.failure.inj he
    rw [Failure.IsShortage, hkind] at hshort
    exact absurd hshort (by decide)
  obtain ⟨t', hrun', -, -, hstdout', hstack', houtput', -⟩ :=
    (exec_run_above [4, 5] (utf8 "b")).2 _ _ _ _ _ _ hrun henough
  refine ⟨e, t, t', hrun, hkind, hstack, houtput, hrun', hstdout', ?_, ?_⟩
  · rw [hstack', hstack]
    rfl
  · rw [houtput', houtput]
    decide

/-- A run that fails for want of a value goes on where one lies beneath. -/
example :
    let s : State Standard := State.new .standard false
    (s.run #[⟨3, 0⟩] .none 2).map (·.1.failure?.bind (·.kind?)) = some (some .stackFail) ∧
      ((s.above [1] []).run #[⟨3, 0⟩] .none 2).map (·.1.failure?.bind (·.kind?)) =
        some (some .segfault) :=
  ⟨rfl, rfl⟩

end StackMachine
