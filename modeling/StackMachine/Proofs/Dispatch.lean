import StackMachine.Proofs.Turns
import StackMachine.Proofs.Words

/-!
# Dispatching standard instructions

Between the head of the loop and the instruction itself a dispatch prints the trace line, moves the
program counter and counts the step. `dispatch_eq` separates a dispatch into a *deed*, which depends
on nothing but the registry, the program counter and the stack, and the state to which it is done.
The separation is what proofs about two runs rest on: where registry, program counter and stack
agree, so do the deeds.

`deed_cases` says what a deed that does not go on can be; such a deed leaves the stack as it was and
the program counter just behind the instruction.
-/

namespace StackMachine

open Text

namespace State

variable {α : Type}

/-! ## The line printed before an instruction -/

/-- The line that announces an instruction in debug mode, without its end. -/
def traceLine (i : Instruction) (s : State α) : Bytes :=
  utf8 "-- exec " ++ (s.registry.name? i.op).getD [] ++ utf8 " arg=" ++ word i.arg
    ++ utf8 " at pc=" ++ word s.pc

/-- What is printed before an instruction. -/
def announced (i : Instruction) (s : State α) : Transcript :=
  if s.debug then ⟨[line (s.traceLine i)]⟩ else {}

theorem trace_eq (i : Instruction) (s : State α) :
    s.trace i = { s with stdout := s.stdout ++ s.announced i } := by
  rw [trace, announced]
  by_cases hdebug : s.debug = true
  · rw [if_pos hdebug, if_pos hdebug]
    rfl
  · rw [if_neg hdebug, if_neg hdebug]
    rfl

theorem registry_trace_advance (i : Instruction) (s : State α) :
    (s.trace i).advance.registry = s.registry := by
  rw [trace_eq]
  rfl

/-- An instruction is carried out by the action that is registered under its number, if there is
one. -/
theorem dispatch_cases [Action α] (i : Instruction) (s : State α) :
    (∃ a, s.registry.action? i.op = some a ∧
      s.dispatch i = Action.exec a i.arg (s.trace i).advance) ∨
    (s.registry.action? i.op = none ∧
      s.dispatch i = (.failed ((s.trace i).advance.unregistered i), (s.trace i).advance)) := by
  rw [dispatch, registry_trace_advance]
  cases s.registry.action? i.op with
  | none => exact .inr ⟨rfl, rfl⟩
  | some a => exact .inl ⟨a, rfl, rfl⟩

/-! ## Deeds -/

/-- What dispatching an instruction comes to, on a state that has printed and written nothing. -/
def deed (i : Instruction) (s : State Standard) : Verdict × State Standard :=
  match s.registry.action? i.op with
  | none => (.failed (s.advance.unregistered i), s.advance.bare)
  | some a => Standard.exec a i.arg s.advance.bare

/-- The state that is left when an instruction was dispatched in `s`. -/
def after (i : Instruction) (s : State Standard) : State Standard :=
  { s with
    pc := (s.deed i).2.pc, stack := (s.deed i).2.stack, steps := s.steps + 1
    stdout := s.stdout ++ s.announced i ++ (s.deed i).2.stdout
    output := s.output ++ (s.deed i).2.output }

/-- A dispatch is a deed done to a state. -/
theorem dispatch_eq (i : Instruction) (s : State Standard) :
    s.dispatch i = ((s.deed i).1, s.after i) := by
  have hregistry : (s.trace i).advance.registry = s.registry := by
    rw [trace_eq]
    rfl
  simp only [dispatch, after, deed, hregistry]
  cases s.registry.action? i.op with
  | none =>
    rw [trace_eq]
    rfl
  | some a =>
    rw [trace_eq]
    exact Standard.exec_eq_amend a i.arg _

/-- A deed after which the loop does not go on changes neither the stack nor, past the advance, the
program counter: the run was halted, the operation number is not registered, the stack is too short,
or the divisor is zero. -/
theorem deed_cases (i : Instruction) (s : State Standard) :
    (s.deed i).1 = .more ∨
    (s.deed i).2 = s.advance.bare ∧
      ((s.deed i).1 = .halt ∧ s.registry.action? i.op = some .exit ∧ s.stack ≠ [] ∨
        (s.deed i).1 = .failed (s.advance.unregistered i) ∧ s.registry.action? i.op = none ∨
        (∃ a, (s.deed i).1 = .failed (s.advance.stackFail a.name a.shortage) ∧
          s.registry.action? i.op = some a ∧ s.stack.length < a.operands) ∨
        (s.deed i).1 = .failed (Standard.divisionByZero s.advance) ∧
          s.registry.action? i.op = some .div ∧ 2 ≤ s.stack.length ∧ s.stack.head? = some 0) := by
  rw [deed]
  cases s.registry.action? i.op with
  | none => exact .inr ⟨rfl, .inr (.inl ⟨rfl, rfl⟩)⟩
  | some a =>
    dsimp only
    rcases a.exec_cases i.arg s.advance.bare with
      ⟨hmore, -, -⟩ | ⟨hexec, rfl, hstack⟩ | ⟨hexec, hshort⟩ | ⟨hexec, rfl, htwo, hzero⟩
    · exact .inl hmore
    · rw [hexec]
      exact .inr ⟨rfl, .inl ⟨rfl, rfl, hstack⟩⟩
    · rw [hexec]
      exact .inr ⟨rfl, .inr (.inr (.inl ⟨a, rfl, rfl, hshort⟩))⟩
    · rw [hexec]
      exact .inr ⟨rfl, .inr (.inr (.inr ⟨rfl, rfl, htwo, hzero⟩))⟩

/-- Such a deed leaves the stack as it was and the program counter just behind the instruction. -/
theorem after_of_deed {i : Instruction} {s : State Standard} (h : (s.deed i).2 = s.advance.bare) :
    (s.after i).pc = s.pc + 1 ∧ (s.after i).stack = s.stack := by
  rw [after, h]
  exact ⟨rfl, rfl⟩

/-! ## Turns over standard instructions -/

/-- A turn stops at the head of the loop, or dispatches the instruction found there. -/
theorem turn_cases (code : Code) (r : Option Interrupt) (s : State Standard) :
    (∃ e, (s.hear r).ready code = .error e ∧ s.turn code r = .inr (.failure e, s.hear r)) ∨
    (∃ i, (s.hear r).ready code = .ok i ∧
      s.turn code r = follow (((s.hear r).deed i).1, (s.hear r).after i)) := by
  cases h : (s.hear r).ready code with
  | error e => exact .inl ⟨e, rfl, turn_of_error h⟩
  | ok i =>
    refine .inr ⟨i, rfl, ?_⟩
    rw [turn_of_ok h, dispatch_eq]

theorem follow_eq_inl_iff {v : Verdict} {s t : State α} :
    follow (v, s) = .inl t ↔ v = .more ∧ s = t := by
  cases v <;> simp [follow]

/-- The end of a run leaves the state that its last dispatch leaves. -/
theorem follow_eq_inr {v : Verdict} {s t : State α} {ending : Ending}
    (h : follow (v, s) = .inr (ending, t)) : s = t := by
  cases v with
  | more => cases h
  | halt | failed | crashed => exact (Prod.mk.inj (Sum.inr.inj h)).2

/-- A turn that the loop goes on after leaves the state that the dispatch leaves. -/
theorem turn_eq_inl {code : Code} {r : Option Interrupt} {s t : State Standard}
    (h : s.turn code r = .inl t) :
    ∃ i, (s.hear r).ready code = .ok i ∧ ((s.hear r).deed i).1 = .more ∧
      t = (s.hear r).after i := by
  rcases s.turn_cases code r with ⟨e, -, hturn⟩ | ⟨i, hready, hturn⟩
  · rw [h] at hturn
    cases hturn
  · rw [h] at hturn
    obtain ⟨hmore, hafter⟩ := follow_eq_inl_iff.mp hturn.symm
    exact ⟨i, hready, hmore, hafter.symm⟩

/-- A failure that ends a run over the standard instructions: the head of the loop found a reason to
stop, or the instruction that was dispatched is not registered, found too little on the stack, or
would have divided by zero. -/
inductive Fails (code : Code) (s : State Standard) : Failure → Prop
  | stopped {e : Failure} : s.ready code = .error e → Fails code s e
  | unregistered (i : Instruction) : Fails code s (s.advance.unregistered i)
  | short (a : Standard) : Fails code s (s.advance.stackFail a.name a.shortage)
  | divisor : Fails code s (Standard.divisionByZero s.advance)

/-- A turn that ends the run returns the value on top of the stack, or one of these failures. -/
theorem ending_of_turn {code : Code} {r : Option Interrupt} {s t : State Standard} {ending : Ending}
    (h : s.turn code r = .inr (ending, t)) :
    (∃ v, ending = .value v) ∨ ∃ e, ending = .failure e ∧ Fails code (s.hear r) e := by
  rcases s.turn_cases code r with ⟨e, hready, hturn⟩ | ⟨i, -, hturn⟩
  · rw [hturn] at h
    obtain ⟨rfl, -⟩ := Prod.mk.inj (Sum.inr.inj h)
    exact .inr ⟨e, rfl, .stopped hready⟩
  · rw [hturn] at h
    rcases (s.hear r).deed_cases i with
      hmore | ⟨hdeed, ⟨hv, -, hne⟩ | ⟨hv, -⟩ | ⟨a, hv, -, -⟩ | ⟨hv, -, -, -⟩⟩
    · rw [hmore] at h
      cases h
    · rw [hv] at h
      obtain ⟨rfl, -⟩ := Prod.mk.inj (Sum.inr.inj h)
      obtain ⟨v, rest, hcons⟩ := List.exists_cons_of_ne_nil hne
      refine .inl ⟨v, ?_⟩
      rw [haltEnding, peek?, (after_of_deed hdeed).2, hcons]
      rfl
    · rw [hv] at h
      obtain ⟨rfl, -⟩ := Prod.mk.inj (Sum.inr.inj h)
      exact .inr ⟨_, rfl, .unregistered i⟩
    · rw [hv] at h
      obtain ⟨rfl, -⟩ := Prod.mk.inj (Sum.inr.inj h)
      exact .inr ⟨_, rfl, .short a⟩
    · rw [hv] at h
      obtain ⟨rfl, -⟩ := Prod.mk.inj (Sum.inr.inj h)
      exact .inr ⟨_, rfl, .divisor⟩

/-- A run that ends returns a value, or one of these failures. -/
theorem ending_of_run {code : Code} {signals : Signals} {fuel : Nat} {s t : State Standard}
    {ending : Ending} (h : s.run code signals fuel = some (ending, t)) :
    (∃ v, ending = .value v) ∨ ∃ e u, ending = .failure e ∧ Fails code u e := by
  obtain ⟨before, u, -, hlast, -⟩ :=
    loop_last (P := fun _ _ => True) (fun _ _ _ _ _ => trivial) trivial h
  rcases ending_of_turn hlast with hvalue | ⟨e, hfailure, hfails⟩
  · exact .inl hvalue
  · exact .inr ⟨e, _, hfailure, hfails⟩

/-- What neither hearing of a request nor a dispatch changes, a run does not change. -/
theorem loop_keeps {β : Type} (f : State Standard → β) (hhear : ∀ r s, f (s.hear r) = f s)
    (hafter : ∀ i s, f (s.after i) = f s) {code : Code} {signals : Signals} {fuel n : Nat}
    {s t : State Standard} {ending : Ending}
    (h : loop code signals fuel n s = some (ending, t)) : f t = f s := by
  have hstep : ∀ k u v, f u = f s → u.turn code (signals k) = .inl v → f v = f s := by
    intro k u v hu hturn
    obtain ⟨i, -, -, rfl⟩ := turn_eq_inl hturn
    rw [hafter, hhear, hu]
  obtain ⟨before, u, hu, hlast, -⟩ := loop_last hstep rfl h
  rcases u.turn_cases code (signals (n + before.length)) with ⟨e, -, hturn⟩ | ⟨i, -, hturn⟩
  · rw [hturn] at hlast
    obtain ⟨-, rfl⟩ := Prod.mk.inj (Sum.inr.inj hlast)
    rw [hhear, hu]
  · rw [hturn] at hlast
    rw [← follow_eq_inr hlast, hafter, hhear, hu]

/-- What neither hearing of a request nor a dispatch changes is the same in all states that the run
dispatches instructions in. -/
theorem trail_keeps {β : Type} (f : State Standard → β) (hhear : ∀ r s, f (s.hear r) = f s)
    (hafter : ∀ i s, f (s.after i) = f s) {code : Code} {signals : Signals} {fuel n : Nat}
    {s : State Standard} : ∀ x ∈ trail code signals fuel n s, f x.1 = f s := by
  induction fuel generalizing n s with
  | zero => simp [trail]
  | succ fuel ih =>
    intro x hx
    rw [trail, List.mem_append] at hx
    rcases hx with hx | hx
    · rw [dispatched] at hx
      split at hx
      · rw [List.mem_singleton] at hx
        rw [hx, hhear]
      · simp at hx
    · cases hturn : s.turn code (signals n) with
      | inl t =>
        obtain ⟨i, -, -, rfl⟩ := turn_eq_inl hturn
        rw [hturn] at hx
        rw [ih x hx, hafter, hhear]
      | inr y => simp [hturn] at hx

end State

end StackMachine
