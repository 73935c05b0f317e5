import StackMachine.Proofs.Instructions

/-!
# Runs as sequences of turns

The loop of a run is cut here into single turns. `State.turn` is one of them, from hearing of a
request to stop to the verdict of the instruction that was dispatched; `loop_succ` says that the
loop does nothing but turns. What a whole run satisfies is then derived from what one turn
satisfies, in two ways:

* `loop_last` carries an invariant from turn to turn up to the last one, and tells at the same time
  which instructions the run dispatched, and in which states (`State.trail`);
* `loop_rel` relates two runs whose turns are related one by one.
-/

namespace StackMachine

namespace State

variable {α β : Type}

/-! ## One turn -/

/-- How the loop goes on after an instruction: with another turn, or to the end of the run. -/
def follow : Verdict × State α → State α ⊕ (Ending × State α)
  | (.more, s) => .inl s
  | (.halt, s) => .inr (s.haltEnding, s)
  | (.failed e, s) => .inr (.failure e, s)
  | (.crashed m, s) => .inr (.crash m, s)

/-- One turn of a run. -/
def turn [Action α] (code : Code) (r : Option Interrupt) (s : State α) :
    State α ⊕ (Ending × State α) :=
  match (s.hear r).ready code with
  | .error e => .inr (.failure e, s.hear r)
  | .ok i => follow ((s.hear r).dispatch i)

theorem turn_of_error [Action α] {code : Code} {r : Option Interrupt} {s : State α} {e : Failure}
    (h : (s.hear r).ready code = .error e) : s.turn code r = .inr (.failure e, s.hear r) := by
  rw [turn, h]

theorem turn_of_ok [Action α] {code : Code} {r : Option Interrupt} {s : State α} {i : Instruction}
    (h : (s.hear r).ready code = .ok i) : s.turn code r = follow ((s.hear r).dispatch i) := by
  rw [turn, h]

/-- The loop is a turn, and then either the loop again or the end. -/
theorem loop_succ [Action α] (code : Code) (signals : Signals) (fuel n : Nat) (s : State α) :
    loop code signals (fuel + 1) n s =
      (s.turn code (signals n)).elim (loop code signals fuel (n + 1)) some := by
  rw [loop, turn]
  cases (s.hear (signals n)).ready code with
  | error e => rfl
  | ok i =>
    dsimp only
    obtain ⟨v, t⟩ := (s.hear (signals n)).dispatch i
    cases v <;> rfl

/-- Hearing of a request twice is hearing of it once. -/
theorem hear_hear (r : Option Interrupt) (s : State α) : (s.hear r).hear r = s.hear r := by
  rw [hear, hear]
  cases s.interrupt <;> cases r <;> rfl

/-- A request that was heard of before the turn it arrives in makes no difference. -/
theorem loop_hear [Action α] (code : Code) (signals : Signals) (fuel n : Nat) (s : State α) :
    loop code signals fuel n (s.hear (signals n)) = loop code signals fuel n s := by
  cases fuel with
  | zero => rfl
  | succ fuel => rw [loop_succ, loop_succ, turn, turn, hear_hear]

/-- An ending that was reached stays the same with more fuel. -/
theorem loop_mono [Action α] {code : Code} {signals : Signals} {fuel fuel' n : Nat} {s : State α}
    {r : Ending × State α} (h : loop code signals fuel n s = some r) (hle : fuel ≤ fuel') :
    loop code signals fuel' n s = some r := by
  induction fuel generalizing fuel' n s with
  | zero => simp [loop] at h
  | succ fuel ih =>
    obtain ⟨fuel', rfl⟩ : ∃ k, fuel' = k + 1 := ⟨fuel' - 1, by omega⟩
    rw [loop_succ] at h ⊢
    cases ht : s.turn code (signals n) with
    | inl t =>
      rw [ht] at h
      exact ih h (by omega)
    | inr r' =>
      rw [ht] at h
      exact h

/-- The run on a state comes to this ending and leaves this state. -/
def Ends [Action α] (code : Code) (signals : Signals) (s : State α) (ending : Ending)
    (t : State α) : Prop :=
  ∃ fuel, s.run code signals fuel = some (ending, t)

/-- A run has at most one end. -/
theorem Ends.unique [Action α] {code : Code} {signals : Signals} {s t t' : State α}
    {ending ending' : Ending} (h : Ends code signals s ending t)
    (h' : Ends code signals s ending' t') : ending = ending' ∧ t = t' := by
  obtain ⟨fuel, h⟩ := h
  obtain ⟨fuel', h'⟩ := h'
  have hl := loop_mono h (Nat.le_max_left fuel fuel')
  have hr := loop_mono h' (Nat.le_max_right fuel fuel')
  rw [hl] at hr
  exact Prod.mk.inj (Option.some.inj hr)

/-! ## What the head of the loop finds -/

/-- The head of the loop finds an instruction exactly when nothing speaks against another step. -/
theorem ready_eq_ok_iff {code : Code} {s : State α} {i : Instruction} :
    s.ready code = .ok i ↔
      code.fetch? s.pc = some i ∧ s.atLimit = false ∧ s.noticed = none := by
  rw [ready]
  cases code.fetch? s.pc with
  | none => simp
  | some j => cases s.atLimit <;> cases s.noticed <;> simp

/-- The three reasons to stop at the head of the loop, in the order in which they are judged. -/
theorem ready_error_cases {code : Code} {s : State α} {e : Failure} (h : s.ready code = .error e) :
    (code.fetch? s.pc = none ∧ e = s.outside code) ∨
    (code.fetch? s.pc ≠ none ∧ s.atLimit = true ∧ e = s.exhausted) ∨
    (code.fetch? s.pc ≠ none ∧ s.atLimit = false ∧ ∃ r, s.noticed = some r ∧ e = s.aborted r) := by
  rw [ready] at h
  cases hf : code.fetch? s.pc with
  | none =>
    rw [hf] at h
    exact .inl ⟨rfl, (Except.error.inj h).symm⟩
  | some j =>
    rw [hf] at h
    cases hl : s.atLimit with
    | true =>
      rw [hl] at h
      exact .inr (.inl ⟨by simp, rfl, (Except.error.inj h).symm⟩)
    | false =>
      cases hn : s.noticed with
      | none => simp [hl, hn] at h
      | some r =>
        simp only [hl, hn, Bool.false_eq_true, if_false] at h
        exact .inr (.inr ⟨by simp, rfl, r, rfl, (Except.error.inj h).symm⟩)

/-! ## The instructions that were dispatched -/

/-- The instruction that a turn dispatches, if it comes to that, and the state it does so in. -/
def dispatched (code : Code) (r : Option Interrupt) (s : State α) : List (State α × Instruction) :=
  match (s.hear r).ready code with
  | .ok i => [(s.hear r, i)]
  | .error _ => []

/-- The instructions that a run dispatches, in order, each with the state it is dispatched in. -/
def trail [Action α] (code : Code) (signals : Signals) :
    (fuel turn : Nat) → State α → List (State α × Instruction)
  | 0, _, _ => []
  | fuel + 1, n, s =>
    s.dispatched code (signals n) ++
      (s.turn code (signals n)).elim (trail code signals fuel (n + 1)) fun _ => []

theorem dispatched_of_ok {code : Code} {r : Option Interrupt} {s : State α} {i : Instruction}
    (h : (s.hear r).ready code = .ok i) : s.dispatched code r = [(s.hear r, i)] := by
  rw [dispatched, h]

theorem dispatched_of_error {code : Code} {r : Option Interrupt} {s : State α} {e : Failure}
    (h : (s.hear r).ready code = .error e) : s.dispatched code r = [] := by
  rw [dispatched, h]

/-- A turn that the loop goes on after has dispatched an instruction. -/
theorem dispatched_of_turn [Action α] {code : Code} {r : Option Interrupt} {s t : State α}
    (h : s.turn code r = .inl t) : ∃ i, s.dispatched code r = [(s.hear r, i)] := by
  cases hr : (s.hear r).ready code with
  | error e =>
    rw [turn_of_error hr] at h
    simp at h
  | ok i => exact ⟨i, dispatched_of_ok hr⟩

/-- **Invariants of runs.** What holds at the start and is handed on by every turn that the loop
goes on after holds in the state of the last turn. That turn is preceded by as many dispatches as
turns. -/
theorem loop_last [Action α] {code : Code} {signals : Signals} {P : Nat → State α → Prop}
    (hstep : ∀ n s t, P n s → s.turn code (signals n) = .inl t → P (n + 1) t)
    {fuel n : Nat} {s t : State α} {ending : Ending} (hs : P n s)
    (h : loop code signals fuel n s = some (ending, t)) :
    ∃ (before : List (State α × Instruction)) (u : State α),
      P (n + before.length) u ∧
      u.turn code (signals (n + before.length)) = .inr (ending, t) ∧
      trail code signals fuel n s = before ++ u.dispatched code (signals (n + before.length)) := by
  induction fuel generalizing n s with
  | zero => simp [loop] at h
  | succ fuel ih =>
    rw [loop_succ] at h
    cases ht : s.turn code (signals n) with
    | inl t₁ =>
      rw [ht] at h
      obtain ⟨before, u, hu, hlast, htrail⟩ := ih (hstep n s t₁ hs ht) h
      obtain ⟨i, hi⟩ := dispatched_of_turn ht
      have hlen : n + ((s.hear (signals n), i) :: before).length = n + 1 + before.length := by
        rw [List.length_cons]
        omega
      refine ⟨(s.hear (signals n), i) :: before, u, ?_, ?_, ?_⟩
      · rw [hlen]
        exact hu
      · rw [hlen]
        exact hlast
      · rw [hlen, trail, ht, hi, Sum.elim_inl, htrail]
        rfl
    | inr r =>
      rw [ht] at h
      refine ⟨[], s, hs, ?_, ?_⟩
      · exact ht.trans (congrArg Sum.inr (Option.some.inj h))
      · rw [trail, ht]
        simp

/-! ## Two runs side by side -/

/-- **Simulation.** Two runs whose states are related, and whose turns lead from related states to
related states or to related ends, last equally long and come to related ends. -/
theorem loop_rel [Action α] [Action β] {code code' : Code} {signals signals' : Signals}
    {R : State α → State β → Prop} {Q : Ending × State α → Ending × State β → Prop}
    (hturn : ∀ n s t, R s t →
      Sum.LiftRel R Q (s.turn code (signals n)) (t.turn code' (signals' n)))
    (fuel n : Nat) {s : State α} {t : State β} (h : R s t) :
    Option.Rel Q (loop code signals fuel n s) (loop code' signals' fuel n t) := by
  induction fuel generalizing n s t with
  | zero => exact .none
  | succ fuel ih =>
    rw [loop_succ, loop_succ]
    have hst := hturn n s t h
    cases hs : s.turn code (signals n) <;> cases ht : t.turn code' (signals' n) <;>
      rw [hs, ht] at hst
    · exact ih (n + 1) (Sum.liftRel_inl_inl.mp hst)
    · simp at hst
    · simp at hst
    · exact .some (Sum.liftRel_inr_inr.mp hst)

/-- Where each turn of two related runs shows the same of what it dispatches, so do the
whole runs. -/
theorem trail_map_eq [Action α] [Action β] {code code' : Code} {signals signals' : Signals}
    {R : State α → State β → Prop} {Q : Ending × State α → Ending × State β → Prop}
    (hturn : ∀ n s t, R s t →
      Sum.LiftRel R Q (s.turn code (signals n)) (t.turn code' (signals' n)))
    {γ : Type} {f : State α × Instruction → γ} {g : State β × Instruction → γ}
    (hshown : ∀ n s t, R s t →
      (s.dispatched code (signals n)).map f = (t.dispatched code' (signals' n)).map g)
    (fuel n : Nat) {s : State α} {t : State β} (h : R s t) :
    (trail code signals fuel n s).map f = (trail code' signals' fuel n t).map g := by
  induction fuel generalizing n s t with
  | zero => rfl
  | succ fuel ih =>
    rw [trail, trail, List.map_append, List.map_append, hshown n s t h]
    have hst := hturn n s t h
    cases hs : s.turn code (signals n) <;> cases ht : t.turn code' (signals' n) <;>
      rw [hs, ht] at hst
    · rw [Sum.elim_inl, Sum.elim_inl, ih (n + 1) (Sum.liftRel_inl_inl.mp hst)]
    · simp at hst
    · simp at hst
    · rfl

/-- A change to the state that every turn carries along is carried along by the run. -/
theorem loop_map [Action α] {code : Code} {signals : Signals} {f : State α → State α}
    (hf : ∀ r s, (f s).turn code r = (s.turn code r).map f (Prod.map id f))
    (fuel n : Nat) (s : State α) :
    loop code signals fuel n (f s) = (loop code signals fuel n s).map (Prod.map id f) := by
  have hrel : Option.Rel (fun x y => y = Prod.map id f x)
      (loop code signals fuel n s) (loop code signals fuel n (f s)) := by
    refine loop_rel (R := fun s t => t = f s) ?_ fuel n rfl
    rintro n s t rfl
    rw [hf]
    cases s.turn code (signals n) with
    | inl t => exact .inl rfl
    | inr x => exact .inr rfl
  revert hrel
  cases loop code signals fuel n s <;> cases loop code signals fuel n (f s) <;> rintro ⟨⟩
  · rfl
  · next h => rw [h, Option.map_some]

/-- Turns may be counted from any number when the requests are. -/
theorem loop_shift [Action α] (code : Code) (signals : Signals) (fuel n k : Nat) (s : State α) :
    loop code signals fuel (n + k) s = loop code (fun j => signals (j + k)) fuel n s := by
  induction fuel generalizing n s with
  | zero => rfl
  | succ fuel ih =>
    rw [loop_succ, loop_succ]
    cases s.turn code (signals (n + k)) with
    | inl t =>
      rw [Sum.elim_inl, Sum.elim_inl, show n + k + 1 = n + 1 + k by omega]
      exact ih (n + 1) t
    | inr x => rfl

end State

end StackMachine
