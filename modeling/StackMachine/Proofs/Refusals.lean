import StackMachine.Proofs.Arrivals

/-!
# Refused instructions

An instruction that fails may have been under way: it may have taken an operand off the stack before
it noticed that another was missing. An action that *spares* the state (`Action.Spares`) does
nothing of the kind, and all standard instructions do (`Standard.spares`).

A run that such a refusal ends leaves the state in which the instruction was dispatched, moved past
the instruction (`Arrives.passed_of_failed`). Over the standard instructions this is every run that
ends with a short stack or a division by zero (`exec_run_of_isRefusal`).
-/

namespace StackMachine

open Text

/-! ## Actions that change nothing where they fail -/

/-- The action leaves the state as it was whenever it fails. -/
def Action.Spares {α : Type} [Action α] (a : α) : Prop :=
  ∀ arg (s t : State α) e, Action.exec a arg s = (.failed e, t) → t = s

namespace Standard

variable {α : Type} {i : Standard} {arg : Value} {s t : State α} {e : Failure}

theorem eq_of_exec_failed (h : exec i arg s = (.failed e, t)) : t = s := by
  rcases i.exec_cases arg s with ⟨hmore, -⟩ | ⟨hhalt, -⟩ | ⟨hshort, -⟩ | ⟨hzero, -⟩
  · rw [h] at hmore
    simp at hmore
  · rw [h] at hhalt
    simp at hhalt
  · rw [h, short] at hshort
    exact (Prod.mk.inj hshort).2
  · rw [h] at hzero
    exact (Prod.mk.inj hzero).2

/-- An instruction halts a run only where there is a value to return. -/
theorem stack_ne_nil_of_halt (h : exec i arg s = (.halt, t)) : t.stack ≠ [] := by
  rcases i.exec_cases arg s with ⟨hmore, -⟩ | ⟨hhalt, -, hne⟩ | ⟨hshort, -⟩ | ⟨hzero, -⟩
  · rw [h] at hmore
    simp at hmore
  · obtain ⟨-, rfl⟩ := Prod.mk.inj (h.symm.trans hhalt)
    exact hne
  · rw [h, short] at hshort
    simp at hshort
  · rw [h] at hzero
    simp at hzero

theorem spares (i : Standard) : Action.Spares i := fun _ _ _ _ => eq_of_exec_failed

end Standard

/-! ## Runs that end with a refusal -/

namespace State

/-- The state moved past an instruction that has done nothing: the instruction was announced, if
instructions are, and counted. A request to stop may have arrived in the meantime. -/
def passed {α : Type} (i : Instruction) (request : Option Interrupt) (s : State α) : State α :=
  { s with
    pc := s.pc + 1, steps := s.steps + 1
    stdout := s.stdout ++ s.announced i
    interrupt := request }

section

variable {α : Type} [Action α] {code : Code} {signals : Signals} {s u t : State α} {n fuel : Nat}
  {i : Instruction} {e : Failure}

/-- A dispatch that fails leaves the state on which the action was called, if there is one and it
spares the state. -/
theorem eq_of_dispatch_failed (hspares : ∀ a, u.registry.action? i.op = some a → Action.Spares a)
    (h : u.dispatch i = (.failed e, t)) : t = (u.trace i).advance := by
  rcases u.dispatch_cases i with ⟨a, haction, hdispatch⟩ | ⟨-, hdispatch⟩
  · exact hspares a haction i.arg _ t e (hdispatch.symm.trans h)
  · exact (Prod.mk.inj (h.symm.trans hdispatch)).2

/-- The last instruction of a run that it ends by failing is the last one of those dispatched. If it
spares the state, the run leaves what the instructions before it have left, moved past it. -/
theorem Arrives.passed_of_failed (h : Arrives code signals s n u) (hready : u.ready code = .ok i)
    (hspares : ∀ a, u.registry.action? i.op = some a → Action.Spares a)
    (hdispatch : u.dispatch i = (.failed e, t)) (hfuel : n < fuel) :
    ∃ before, trail code signals fuel 0 (s.enter code) = before ++ [(u, i)] ∧
      t = (leftBy code s before).passed i t.interrupt := by
  obtain ⟨k, rfl⟩ : ∃ k, fuel = n + (k + 1) := ⟨fuel - n - 1, by omega⟩
  obtain ⟨before, -, hleft, htrail⟩ := h.exists_trail
  have hlast : trail code signals (k + 1) n u = [(u, i)] := by
    rw [trail, h.turn_eq hready, hdispatch, dispatched, h.hear_eq, hready]
    rfl
  refine ⟨before, by rw [htrail, hlast], ?_⟩
  have ht : t = (u.trace i).advance := eq_of_dispatch_failed hspares hdispatch
  -- hearing of a request changes the interrupt alone
  rw [ht, trace_eq, hleft]
  rfl

end

/-- An instruction that ends a run with a failure has failed, or has halted the run on an empty
stack. -/
theorem verdict_of_follow {α : Type} {v : Verdict} {s t : State α} {e : Failure}
    (h : follow (v, s) = .inr (.failure e, t)) : v = .failed e ∨ v = .halt ∧ s.stack = [] := by
  cases v with
  | failed e' =>
    obtain ⟨he, -⟩ := Prod.mk.inj (Sum.inr.inj h)
    exact .inl (congrArg Verdict.failed (Ending.failure.inj he))
  | halt =>
    obtain ⟨hending, -⟩ := Prod.mk.inj (Sum.inr.inj h)
    rcases hstack : s.stack with _ | ⟨v, rest⟩
    · exact .inr ⟨rfl, rfl⟩
    · rw [haltEnding, peek?, hstack] at hending
      simp at hending
  | more | crashed => simp [follow] at h

end State

/-- The failure is the fault of an instruction that finds too little on the stack or would divide by
zero. -/
def Failure.IsRefusal (e : Failure) : Prop := e.kind? = some .stackFail ∨ e.kind? = some .divByZero

namespace State

variable {code : Code} {signals : Signals} {s u t : State Standard} {i : Instruction}
  {fuel : Nat} {e : Failure}

/-- Nothing that the head of the loop finds is a refusal. -/
theorem not_isRefusal_of_ready (h : u.ready code = .error e) : ¬ e.IsRefusal := by
  rcases ready_error_cases h with ⟨-, rfl⟩ | ⟨-, -, rfl⟩ | ⟨-, -, r, -, rfl⟩ <;>
    simp [Failure.IsRefusal, Failure.kind?, Failure.fault?, outside, exhausted, aborted,
      FaultKind.segfault, FaultKind.stackFail, FaultKind.divByZero]

theorem not_isRefusal_unregistered (i : Instruction) (s : State Standard) :
    ¬ (s.unregistered i).IsRefusal := by
  simp [Failure.IsRefusal, Failure.kind?, Failure.fault?, unregistered,
    FaultKind.invalidInstruction, FaultKind.stackFail, FaultKind.divByZero]

/-- A run that ends with a refusal is ended by an instruction that is registered and has failed.
Carried out on the state that it leaves, it fails again. -/
theorem Concludes.exists_of_isRefusal {reason : Reason} (h : Concludes code u reason (.failure e) t)
    (hrefusal : e.IsRefusal) :
    ∃ i a, u.ready code = .ok i ∧ u.registry.action? i.op = some a ∧ u.dispatch i = (.failed e, t) ∧
      Standard.exec a i.arg t = (.failed e, t) := by
  rcases h.cases with ⟨e', hready, -, hending, -⟩ | ⟨i, verdict, hready, -, hdispatch, hfollow⟩
  · obtain rfl := Ending.failure.inj hending
    exact absurd hrefusal (not_isRefusal_of_ready hready)
  · rcases u.dispatch_cases i with ⟨a, haction, hexec⟩ | ⟨-, hnone⟩
    · have hexec : Standard.exec a i.arg (u.trace i).advance = (verdict, t) :=
        hexec.symm.trans hdispatch
      rcases verdict_of_follow hfollow with rfl | ⟨rfl, hempty⟩
      · have hsame : t = (u.trace i).advance := Standard.eq_of_exec_failed hexec
        exact ⟨i, a, hready, haction, hdispatch, by rw [hsame] at hexec ⊢; exact hexec⟩
      · exact absurd hempty (Standard.stack_ne_nil_of_halt hexec)
    · obtain ⟨rfl, rfl⟩ := Prod.mk.inj (hdispatch.symm.trans hnone)
      obtain ⟨he, -⟩ := Prod.mk.inj (Sum.inr.inj hfollow)
      obtain rfl := Ending.failure.inj he
      exact absurd hrefusal (not_isRefusal_unregistered i _)

end State

/-- **Refused instructions change nothing.** A standard instruction that fails leaves the state as
it was. So a run that ends with a short stack or a division by zero leaves the state that the
instruction dispatched before the last one has left, or in which the run was entered; only the
program counter and the step count have moved on, and the instruction was announced if instructions
are. Carried out on what is left, the instruction would fail in the same way. -/
theorem exec_run_of_isRefusal :
    (∀ {α : Type} (i : Standard) (arg : Value) (s t : State α) (e : Failure),
      Standard.exec i arg s = (.failed e, t) → t = s) ∧
    ∀ (code : Code) (signals : Signals) (fuel : Nat) (s t : State Standard) (e : Failure),
      s.run code signals fuel = some (.failure e, t) → e.IsRefusal →
      ∃ before u i a,
        State.trail code signals fuel 0 (s.enter code) = before ++ [(u, i)] ∧
        u.registry.action? i.op = some a ∧
        t = (State.leftBy code s before).passed i t.interrupt ∧
        Standard.exec a i.arg t = (.failed e, t) := by
  refine ⟨fun _ _ _ _ _ => Standard.eq_of_exec_failed, ?_⟩
  intro code signals fuel s t e hrun hrefusal
  obtain ⟨n, u, reason, hn, hu, hconcludes⟩ := State.exists_concludes hrun
  obtain ⟨i, a, hready, haction, hdispatch, hagain⟩ := hconcludes.exists_of_isRefusal hrefusal
  obtain ⟨before, htrail, ht⟩ := hu.passed_of_failed hready (fun a _ => a.spares) hdispatch hn
  exact ⟨before, u, i, a, htrail, haction, ht, hagain⟩

/-- A program that writes a character and then divides its code by zero. -/
def dividing : Code := #[⟨1, 65⟩, ⟨12, 0⟩, ⟨1, 0⟩, ⟨5, 0⟩]

/-- A machine that has been at work and announces its instructions. -/
def usedMachine : State Standard :=
  { registry := .standard, stack := [9], steps := 40, debug := true }

/-- The division leaves dividend and divisor where they were, above what the stack held from the
start. -/
theorem exec_run_of_isRefusal_dividing :
    ∃ e t before u i a,
      usedMachine.run dividing Signals.none 4 = some (.failure e, t) ∧ e.IsRefusal ∧
      State.trail dividing Signals.none 4 0 (usedMachine.enter dividing) = before ++ [(u, i)] ∧
      u.registry.action? i.op = some a ∧
      t = (State.leftBy dividing usedMachine before).passed i t.interrupt ∧
      Standard.exec a i.arg t = (.failed e, t) ∧
      t.stack = [0, 65, 9] ∧ t.output.toBytes = [65] ∧ t.pc = 4 ∧ t.steps = 44 := by
  obtain ⟨e, t, hrun, hrefusal, hleft⟩ : ∃ e t,
      usedMachine.run dividing Signals.none 4 = some (.failure e, t) ∧ e.IsRefusal ∧
        t.stack = [0, 65, 9] ∧ t.output.toBytes = [65] ∧ t.pc = 4 ∧ t.steps = 44 :=
    ⟨_, _, rfl, .inr rfl, rfl, rfl, rfl, rfl⟩
  obtain ⟨before, u, i, a, htrail, haction, ht, hagain⟩ :=
    exec_run_of_isRefusal.2 dividing Signals.none 4 usedMachine t e hrun hrefusal
  exact ⟨e, t, before, u, i, a, hrun, hrefusal, htrail, haction, ht, hagain, hleft⟩

end StackMachine
