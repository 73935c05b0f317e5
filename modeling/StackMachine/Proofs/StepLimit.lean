import StackMachine.Proofs.Arrivals

/-!
# The step limit

The limit of a state decides nothing but when a run is stopped. A turn that is not stopped by it
goes the same way under any laxer limit (`turn_withLimit`), so a run that ends for another reason
ends so under all of them. A run that is stopped leaves the very state that a run under a laxer
limit passes through at that point (`loop_resume`); going on from it is therefore going on with that
run.

A run under a positive limit always ends (`exists_ends_of_limit`).
-/

namespace StackMachine

/-- Whether a run was ended by the step limit. -/
def Ending.isStepLimit (e : Ending) : Bool := e.failure?.any Failure.hasStepLimit

/-- The limit `m'` allows a run at least what the limit `m` allows it. -/
def Laxer (m m' : Int64) : Prop := m' ≤ 0 ∨ 0 < m ∧ m ≤ m'

namespace State

variable {α : Type}

/-- A state with another step limit. -/
def withLimit (m : Int64) (s : State α) : State α := { s with maxSteps := m }

/-- A state at its limit under a laxer limit is at its limit. -/
theorem atLimit_of_withLimit {s : State α} {m : Int64} (hm : Laxer s.maxSteps m)
    (h : (s.withLimit m).atLimit = true) : s.atLimit = true := by
  rw [atLimit, Bool.and_eq_true, decide_eq_true_eq, decide_eq_true_eq] at h ⊢
  obtain ⟨hpos, hsteps⟩ := h
  change 0 < m at hpos
  change m ≤ s.steps at hsteps
  rcases hm with hm | ⟨hm, hle⟩
  · exact absurd hpos (Int64.not_lt.mpr hm)
  · exact ⟨hm, Int64.le_trans hle hsteps⟩

/-! ## One turn under two limits -/

/-- The head of the loop either stops at the limit, or finds the same under every laxer limit. -/
theorem ready_withLimit (code : Code) {s : State α} {m : Int64} (hm : Laxer s.maxSteps m) :
    s.ready code = .error s.exhausted ∨
    (∀ e, s.ready code = .error e → e.hasStepLimit = false) ∧
      (s.withLimit m).ready code = s.ready code := by
  rw [ready, ready, show (s.withLimit m).pc = s.pc from rfl]
  cases code.fetch? s.pc with
  | none =>
    -- the program counter is judged before the limit
    refine .inr ⟨?_, rfl⟩
    rintro e ⟨⟩
    rfl
  | some i =>
    cases hlimit : s.atLimit with
    | true => exact .inl rfl
    | false =>
      have hlimit' : (s.withLimit m).atLimit = false := by
        rw [Bool.eq_false_iff] at hlimit ⊢
        exact fun h => hlimit (atLimit_of_withLimit hm h)
      rw [hlimit', show (s.withLimit m).noticed = s.noticed from rfl]
      refine .inr ⟨?_, rfl⟩
      intro e h
      cases hnoticed : s.noticed with
      | none => simp [hnoticed] at h
      | some r =>
        simp only [hnoticed, Bool.false_eq_true, if_false, Except.error.injEq] at h
        rw [← h]
        rfl

theorem follow_withLimit (m : Int64) (v : Verdict) (s : State α) :
    follow (v, s.withLimit m) = (follow (v, s)).map (withLimit m) (Prod.map id (withLimit m)) := by
  cases v <;> rfl

/-- No instruction reports the step limit. -/
theorem isStepLimit_of_deed {s t : State Standard} {i : Instruction} {ending : Ending}
    (h : follow ((s.deed i).1, s.after i) = .inr (ending, t)) : ending.isStepLimit = false := by
  rcases s.deed_cases i with hv | ⟨-, ⟨hv, -⟩ | ⟨hv, -⟩ | ⟨a, hv, -⟩ | ⟨hv, -⟩⟩
  · rw [hv] at h
    cases h
  · rw [hv] at h
    obtain ⟨rfl, -⟩ := Prod.mk.inj (Sum.inr.inj h)
    rw [haltEnding]
    cases (s.after i).peek? <;> rfl
  all_goals
    rw [hv] at h
    obtain ⟨rfl, -⟩ := Prod.mk.inj (Sum.inr.inj h)
    rfl

/-- A turn is either stopped by the limit, or goes the same way under every laxer limit. -/
theorem turn_withLimit {code : Code} {r : Option Interrupt} {s : State Standard} {m : Int64}
    (hm : Laxer s.maxSteps m) :
    s.turn code r = .inr (.failure (s.hear r).exhausted, s.hear r) ∨
    (∀ ending t, s.turn code r = .inr (ending, t) → ending.isStepLimit = false) ∧
      (s.withLimit m).turn code r =
        (s.turn code r).map (withLimit m) (Prod.map id (withLimit m)) := by
  have hhear : (s.withLimit m).hear r = (s.hear r).withLimit m := rfl
  rcases ready_withLimit code (s := s.hear r) hm with hstop | ⟨hother, hsame⟩
  · exact .inl (turn_of_error hstop)
  · refine .inr ?_
    rcases s.turn_cases code r with ⟨e, hready, hturn⟩ | ⟨i, hready, hturn⟩
    · constructor
      · intro ending t h
        rw [hturn] at h
        obtain ⟨rfl, -⟩ := Prod.mk.inj (Sum.inr.inj h)
        exact hother e hready
      · rw [hready, ← hhear] at hsame
        rw [turn_of_error hsame, hturn]
        rfl
    · constructor
      · intro ending t h
        rw [hturn] at h
        exact isStepLimit_of_deed h
      · rw [hready, ← hhear] at hsame
        rw [turn_of_ok hsame, dispatch_eq, hturn, ← follow_withLimit]
        rfl

theorem turn_maxSteps {code : Code} {r : Option Interrupt} {s t : State Standard}
    (h : s.turn code r = .inl t) : t.maxSteps = s.maxSteps := by
  obtain ⟨i, -, -, rfl⟩ := turn_eq_inl h
  rfl

/-! ## Whole runs -/

/-- A run that ends for another reason than its limit ends in the same way under every
laxer limit. -/
theorem loop_withLimit {code : Code} {signals : Signals} {fuel n : Nat} {s t : State Standard}
    {ending : Ending} {m : Int64} (hm : Laxer s.maxSteps m)
    (h : loop code signals fuel n s = some (ending, t)) (hending : ending.isStepLimit = false) :
    loop code signals fuel n (s.withLimit m) = some (ending, t.withLimit m) := by
  induction fuel generalizing n s with
  | zero => simp [loop] at h
  | succ fuel ih =>
    rw [loop_succ] at h ⊢
    rcases turn_withLimit (r := signals n) hm with hstop | ⟨-, hsame⟩
    · rw [hstop] at h
      obtain ⟨rfl, -⟩ := Prod.mk.inj (Option.some.inj h)
      cases hending
    · rw [hsame]
      cases hturn : s.turn code (signals n) with
      | inl u =>
        rw [hturn] at h
        rw [← turn_maxSteps hturn] at hm
        exact ih hm h
      | inr x =>
        rw [hturn] at h
        rw [Sum.elim_inr] at h
        rw [Option.some.inj h]
        rfl

/-- A run that is ended by its limit leaves the state that a run under a laxer limit passes through
after as many turns, and goes on from. -/
theorem loop_resume {code : Code} {signals : Signals} {fuel n : Nat} {s t : State Standard}
    {ending : Ending} {m : Int64} (hm : Laxer s.maxSteps m)
    (h : loop code signals fuel n s = some (ending, t)) (hending : ending.isStepLimit = true) :
    ∃ k, ∀ fuel', loop code signals (fuel' + k) n (s.withLimit m) =
      loop code signals fuel' (n + k) (t.withLimit m) := by
  induction fuel generalizing n s with
  | zero => simp [loop] at h
  | succ fuel ih =>
    rw [loop_succ] at h
    rcases turn_withLimit (r := signals n) hm with hstop | ⟨hother, hsame⟩
    · rw [hstop] at h
      obtain ⟨-, rfl⟩ := Prod.mk.inj (Option.some.inj h)
      refine ⟨0, fun fuel' => ?_⟩
      rw [Nat.add_zero, Nat.add_zero, ← loop_hear code signals fuel' n (s.withLimit m)]
      rfl
    · cases hturn : s.turn code (signals n) with
      | inl u =>
        rw [hturn] at h
        rw [← turn_maxSteps hturn] at hm
        obtain ⟨k, hk⟩ := ih hm h
        refine ⟨k + 1, fun fuel' => ?_⟩
        rw [← Nat.add_assoc, loop_succ, hsame, hturn, Sum.map_inl, Sum.elim_inl, hk]
        congr 1
        omega
      | inr x =>
        rw [hturn] at h
        obtain rfl := Option.some.inj h
        rw [hother ending t hturn] at hending
        cases hending

theorem enter_withLimit (code : Code) (m : Int64) (s : State α) :
    (s.withLimit m).enter code = (s.enter code).withLimit m := by
  rw [enter_eq, enter_eq]
  rfl

/-- A run under a positive limit ends. -/
theorem exists_ends_of_limit (code : Code) (signals : Signals) {s : State Standard}
    (hpos : 0 < s.maxSteps) : ∃ ending t, Ends code signals s ending t := by
  obtain ⟨ending, t, h⟩ :=
    run_isSome_of_limit Standard.keep_meter code signals s.only_true hpos (Nat.lt_succ_self _)
  exact ⟨ending, t, _, h⟩

/-! ## Printing to another place -/

/-- A state before which something else was printed. -/
def printedAfter (before : Transcript) (s : State α) : State α :=
  { s with stdout := before ++ s.stdout }

theorem after_printedAfter (before : Transcript) (i : Instruction) (s : State Standard) :
    (s.printedAfter before).after i = (s.after i).printedAfter before := by
  have hstdout : before ++ s.stdout ++ s.announced i ++ (s.deed i).2.stdout =
      before ++ (s.stdout ++ s.announced i ++ (s.deed i).2.stdout) := by
    simp only [Transcript.append_assoc]
  exact congrArg (fun o => { s.after i with stdout := o }) hstdout

/-- What was printed before a turn stays before what the turn prints, and has no other effect. -/
theorem turn_printedAfter (code : Code) (before : Transcript) (r : Option Interrupt)
    (s : State Standard) :
    (s.printedAfter before).turn code r =
      (s.turn code r).map (printedAfter before) (Prod.map id (printedAfter before)) := by
  have hready : ((s.printedAfter before).hear r).ready code = (s.hear r).ready code := rfl
  rcases s.turn_cases code r with ⟨e, herror, hturn⟩ | ⟨i, hok, hturn⟩
  · rw [herror] at hready
    rw [turn_of_error hready, hturn]
    rfl
  · rw [hok] at hready
    have hafter : ((s.printedAfter before).hear r).after i =
        ((s.hear r).after i).printedAfter before :=
      after_printedAfter before i (s.hear r)
    rw [turn_of_ok hready, dispatch_eq, hturn, hafter]
    change follow (((s.hear r).deed i).1, _) = _
    cases ((s.hear r).deed i).1 <;> rfl

end State

/-! ## Transparency of the limit -/

open State

/-- **The step limit is transparent.** A run under a positive limit ends. If it ends for another
reason than the limit, then so does the run under any larger limit or under none, with the same
ending and the same state. If it was the limit, then going on under a larger limit comes to the same
ending and the same state as one run under that limit, and the texts printed by the two parts make
up the text printed by the whole. No request to stop arrives while the runs last. -/
theorem ends_of_maxSteps_lt (code : Code) (s : State Standard) {m m' : Int64} (hm : 0 < m)
    (hm' : m < m') :
    (∃ ending t, Ends code .none { s with maxSteps := m } ending t) ∧
    ∀ ending t, Ends code .none { s with maxSteps := m } ending t →
      (ending.isStepLimit = false → ∀ l, l = m' ∨ l = 0 →
        Ends code .none { s with maxSteps := l } ending { t with maxSteps := l }) ∧
      (ending.isStepLimit = true → ∃ ending' u w,
        Ends code .none { t with maxSteps := m', stdout := .empty } ending' u ∧
        Ends code .none { s with maxSteps := m' } ending' w ∧
        w = { u with stdout := w.stdout } ∧
        w.stdout.toBytes = t.stdout.toBytes ++ u.stdout.toBytes) := by
  have hpos : 0 < m' := Int64.lt_trans hm hm'
  refine ⟨exists_ends_of_limit code .none hm, ?_⟩
  rintro ending t ⟨fuel, h⟩
  change loop code .none fuel 0 ((s.withLimit m).enter code) = some (ending, t) at h
  have hlimit : ((s.withLimit m).enter code).maxSteps = m := by
    rw [enter_eq]
    rfl
  have hentry : ∀ l, ((s.withLimit m).enter code).withLimit l = (s.withLimit l).enter code := by
    intro l
    rw [enter_withLimit, enter_withLimit]
    rfl
  constructor
  · intro hending l hl
    have hlax : Laxer ((s.withLimit m).enter code).maxSteps l := by
      rw [hlimit]
      rcases hl with rfl | rfl
      · exact .inr ⟨hm, Int64.le_of_lt hm'⟩
      · exact .inl (Int64.le_refl 0)
    have hloop := loop_withLimit hlax h hending
    rw [hentry] at hloop
    exact ⟨fuel, hloop⟩
  · intro hending
    have hlax : Laxer ((s.withLimit m).enter code).maxSteps m' := by
      rw [hlimit]
      exact .inr ⟨hm, Int64.le_of_lt hm'⟩
    obtain ⟨k, hk⟩ := loop_resume hlax h hending
    -- the state that is left was entered, so going on from it lists nothing again
    have hentered : { t with maxSteps := m', stdout := .empty }.entered = true := by
      change t.entered = true
      rw [loop_keeps (·.entered) (fun _ _ => rfl) (fun _ _ => rfl) h, enter_eq]
    obtain ⟨ending', u, fuel', hu⟩ :=
      exists_ends_of_limit code .none (s := { t with maxSteps := m', stdout := .empty }) hpos
    refine ⟨ending', u, u.printedAfter t.stdout, ⟨fuel', hu⟩, ⟨fuel' + k, ?_⟩, rfl, ?_⟩
    · rw [run, enter_of_entered hentered] at hu
      rw [run]
      change loop code .none (fuel' + k) 0 ((s.withLimit m').enter code) = _
      rw [← hentry m', hk fuel', loop_shift]
      change loop code .none fuel' 0
        (printedAfter t.stdout { t with maxSteps := m', stdout := .empty }) = _
      rw [loop_map (turn_printedAfter code t.stdout), hu]
      rfl
    · exact Transcript.toBytes_append _ _

/-- An endless loop that prints, in debug mode, cut after four steps and again after nine. -/
theorem ends_of_maxSteps_lt_endlessLoop :
    let code : Code := #[⟨1, 7⟩, ⟨0, 0⟩, ⟨9, 1⟩]
    let s : State Standard := { registry := .standard, debug := true }
    ∃ ending t, Ends code .none { s with maxSteps := 4 } ending t ∧ ending.isStepLimit = true ∧
      ∃ ending' u w,
        Ends code .none { t with maxSteps := 9, stdout := .empty } ending' u ∧
        Ends code .none { s with maxSteps := 9 } ending' w ∧
        w = { u with stdout := w.stdout } ∧
        w.stdout.toBytes = t.stdout.toBytes ++ u.stdout.toBytes :=
  ⟨_, _, ⟨5, rfl⟩, rfl,
    ((ends_of_maxSteps_lt _ _ (m := 4) (by decide) (by decide)).2 _ _ ⟨5, rfl⟩).2 rfl⟩

end StackMachine
