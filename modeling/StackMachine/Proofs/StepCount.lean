import StackMachine.Proofs.StepLimit

/-!
# What a step limit guarantees

The machine counts a step for every instruction that it dispatches, and looks at the count when it
comes to the head of the loop, after the program counter and before anything else. Over any actions
that leave the count and the limit alone this bounds every run, whatever it jumps to
(`run_bounded`).

At the last step that the limit permits three things can happen. The instruction may halt the run,
which then succeeds; it may lead out of the code, which is reported as such; or it may lead to
another instruction, and only then the limit is reported. Each is a fact about the arrival that
follows or precedes that step (`Bounded`). Over the standard instructions nothing else is reported
as the limit (`Standard.isStepLimit_iff_reachesLimit`).
-/

namespace StackMachine

namespace State

variable {α : Type} [Action α] {P : α → Prop} {code : Code} {signals : Signals}
  {s t : State α} {fuel : Nat} {ending : Ending}

/-- The run arrives before an instruction, with a step count that the limit does not allow
to grow. -/
def ReachesLimit (code : Code) (signals : Signals) (s : State α) : Prop :=
  ∃ n u, Arrives code signals s n u ∧ (0 ≤ u.pc.toInt ∧ u.pc.toInt < code.size) ∧
    s.maxSteps ≤ u.steps

/-- An instruction that the run dispatches fails, of its own accord, with the failure that stands
for the step limit. -/
def FailsLikeLimit (code : Code) (signals : Signals) (s : State α) : Prop :=
  ∃ n u i e t, Arrives code signals s n u ∧ u.ready code = .ok i ∧ u.dispatch i = (.failed e, t) ∧
    e.hasStepLimit = true

/-- What the step limit of `s` guarantees for its run, which has come to an ending and left the
state `t`. -/
structure Bounded (code : Code) (signals : Signals) (s : State α) (fuel : Nat) (ending : Ending)
    (t : State α) :
    Prop where
  /-- The run dispatches no more instructions than the limit leaves steps. -/
  length_le :
    (trail code signals fuel 0 (s.enter code)).length ≤ (s.maxSteps.toInt - s.steps.toInt).toNat
  /-- The count has grown by as many. -/
  steps_eq : t.steps.toInt = s.steps.toInt + (trail code signals fuel 0 (s.enter code)).length
  /-- The limit is reported exactly if it is reached. An instruction can fail with the
  same failure. -/
  isStepLimit_iff : ending.isStepLimit = true ↔
    ReachesLimit code signals s ∨ FailsLikeLimit code signals s
  /-- A run that is stopped by the limit has dispatched all the instructions that were permitted,
  and leaves the state that the last of them has left. -/
  of_reachesLimit : ReachesLimit code signals s →
    ending = .failure t.exhausted ∧
    (trail code signals fuel 0 (s.enter code)).length = (s.maxSteps.toInt - s.steps.toInt).toNat ∧
    ∃ request, t =
      { leftBy code s (trail code signals fuel 0 (s.enter code)) with interrupt := request }
  /-- A run that halts on the last step that is permitted succeeds. -/
  of_halt : ∀ n u i v top, Arrives code signals s n u → u.ready code = .ok i →
    u.steps + 1 = s.maxSteps →
    u.dispatch i = (.halt, v) → v.peek? = some top → ending = .value top ∧ t = v
  /-- A run that leaves the code on the last step that is permitted is reported as such. -/
  of_outside : ∀ n u, Arrives code signals s n u → ¬ (0 ≤ u.pc.toInt ∧ u.pc.toInt < code.size) →
    u.steps = s.maxSteps →
    (∃ e, ending = .failure e ∧ e.kind? = some .segfault) ∧ ending.isStepLimit = false ∧ t = u

omit [Action α] in
theorem Metered.atLimit_iff {n : Nat} {u : State α} (h : Metered P s n u) (hpos : 0 < s.maxSteps) :
    u.atLimit = true ↔ s.maxSteps ≤ u.steps := by
  rw [atLimit, h.maxSteps, decide_eq_true hpos, Bool.true_and, decide_eq_true_iff]

omit [Action α] in
/-- With no steps left, all that were permitted have been taken. -/
theorem Metered.eq_of_atLimit {n : Nat} {u : State α} (h : Metered P s n u) (hpos : 0 < s.maxSteps)
    (hlimit : u.atLimit = true) : n = (s.maxSteps.toInt - s.steps.toInt).toNat := by
  rw [h.atLimit_iff hpos, Int64.le_iff_toInt_le, h.steps] at hlimit
  have hwithin := h.within
  omega

/-- The limit is reached exactly if a turn of the run is ended by it. -/
theorem reachesLimit_iff (hkeep : Action.Keep P (meter (α := α))) (hs : s.registry.Only P)
    (hpos : 0 < s.maxSteps) :
    ReachesLimit code signals s ↔
      ∃ n u, Arrives code signals s n u ∧ Concludes code u .exhausted (.failure u.exhausted) u := by
  have hiff : ∀ {n u}, Arrives code signals s n u → (u.atLimit = true ↔ s.maxSteps ≤ u.steps) :=
    fun hu => (hu.metered hkeep hs hpos).atLimit_iff hpos
  constructor
  · rintro ⟨n, u, hu, hpc, hsteps⟩
    rw [← Code.fetch?_isSome_iff, Option.isSome_iff_ne_none] at hpc
    exact ⟨n, u, hu, .exhausted hpc ((hiff hu).mpr hsteps)⟩
  · rintro ⟨n, u, hu, hconcludes⟩
    cases hconcludes with
    | exhausted hfetch hlimit =>
      rw [← Option.isSome_iff_ne_none, Code.fetch?_isSome_iff] at hfetch
      exact ⟨n, u, hu, hfetch, (hiff hu).mp hlimit⟩

/-- What is reported as the step limit is the limit, or the failure of an instruction. -/
theorem Concludes.isStepLimit_cases {u : State α} {reason : Reason}
    (h : Concludes code u reason ending t) (hlimit : ending.isStepLimit = true) :
    Concludes code u .exhausted (.failure u.exhausted) u ∨
      ∃ i e, u.ready code = .ok i ∧ u.dispatch i = (.failed e, t) ∧ e.hasStepLimit = true := by
  cases h with
  | exhausted hfetch hreached => exact .inl (.exhausted hfetch hreached)
  | failed hready hdispatch => exact .inr ⟨_, _, hready, hdispatch, hlimit⟩
  | strayed | interrupted | crashed => cases hlimit
  | halted =>
    rw [haltEnding] at hlimit
    split at hlimit <;> cases hlimit

/-- The limit is reported exactly if it is reached, or an instruction fails with the same
failure. -/
theorem isStepLimit_iff (hkeep : Action.Keep P (meter (α := α))) (hs : s.registry.Only P)
    (hpos : 0 < s.maxSteps) (hrun : s.run code signals fuel = some (ending, t)) :
    ending.isStepLimit = true ↔ ReachesLimit code signals s ∨ FailsLikeLimit code signals s := by
  rw [reachesLimit_iff hkeep hs hpos]
  constructor
  · intro hlimit
    obtain ⟨n, u, reason, -, hu, hconcludes⟩ := exists_concludes hrun
    rcases hconcludes.isStepLimit_cases hlimit with hexhausted | ⟨i, e, hready, hdispatch, he⟩
    · exact .inl ⟨n, u, hu, hexhausted⟩
    · exact .inr ⟨n, u, i, e, t, hu, hready, hdispatch, he⟩
  · rintro (⟨n, u, hu, hexhausted⟩ | ⟨n, u, i, e, v, hu, hready, hdispatch, he⟩)
    · obtain ⟨rfl, -⟩ := hu.eq_of_run hexhausted hrun
      rfl
    · obtain ⟨rfl, -⟩ := hu.eq_of_run (.failed hready hdispatch) hrun
      exact he

/-- Actions that never fail with the failure of the limit leave it to the machine to report the
limit. -/
theorem not_failsLikeLimit {β : Type} {f : State α → β} (hkeep : Action.Keep P f)
    (hs : s.registry.Only P)
    (hnever : ∀ a arg u e, P a → (Action.exec a arg u).1 = .failed e → e.hasStepLimit = false) :
    ¬ FailsLikeLimit code signals s := by
  rintro ⟨n, u, i, e, t, hu, -, hdispatch, he⟩
  rcases u.dispatch_cases i with ⟨a, haction, heq⟩ | ⟨-, heq⟩
  · rw [heq] at hdispatch
    rw [hnever a _ _ e (hu.only hkeep hs _ a haction) (congrArg Prod.fst hdispatch)] at he
    cases he
  · rw [heq] at hdispatch
    obtain rfl := Verdict.failed.inj (Prod.mk.inj hdispatch).1
    cases he

/-- A run that ends has counted the instructions that it dispatched. -/
theorem metered_of_run (hkeep : Action.Keep P (meter (α := α))) (hs : s.registry.Only P)
    (hpos : 0 < s.maxSteps) (hrun : s.run code signals fuel = some (ending, t)) :
    Metered P s (trail code signals fuel 0 (s.enter code)).length t := by
  obtain ⟨n, u, reason, hn, hu, hconcludes⟩ := exists_concludes hrun
  rw [(hu.trail_of_concludes hconcludes hn).1]
  exact (hu.metered hkeep hs hpos).conclude hkeep hpos hconcludes

/-- **A step limit bounds every run**, over actions that leave the step count and the limit alone,
and whatever requests to stop arrive. The run ends. -/
theorem run_bounded (hkeep : Action.Keep P (meter (α := α))) (code : Code) (signals : Signals)
    (hs : s.registry.Only P) (hpos : 0 < s.maxSteps)
    (hfuel : (s.maxSteps.toInt - s.steps.toInt).toNat < fuel) :
    ∃ ending t, s.run code signals fuel = some (ending, t) ∧
      Bounded code signals s fuel ending t := by
  obtain ⟨ending, t, hrun⟩ := run_isSome_of_limit hkeep code signals hs hpos hfuel
  obtain ⟨n, u, reason, hn, hu, hconcludes⟩ := exists_concludes hrun
  have hmetered := metered_of_run hkeep hs hpos hrun
  refine ⟨ending, t, hrun, hmetered.within, hmetered.steps, isStepLimit_iff hkeep hs hpos hrun,
    fun hreaches => ?_, ?_, ?_⟩
  · obtain ⟨m, v, hv, hexhausted⟩ := (reachesLimit_iff hkeep hs hpos).mp hreaches
    obtain ⟨rfl, rfl⟩ := hv.eq_of_run hexhausted hrun
    cases hexhausted with
    | exhausted _ hlimit =>
      exact ⟨rfl, hmetered.eq_of_atLimit hpos hlimit, (hu.trail_of_concludes hconcludes hn).2⟩
  · intro m v i w top hv hready _ hdispatch htop
    obtain ⟨rfl, rfl⟩ := hv.eq_of_run (.halted hready hdispatch) hrun
    rw [haltEnding, htop]
    exact ⟨rfl, rfl⟩
  · intro m v hv hpc _
    rw [← Code.fetch?_isSome_iff, Option.not_isSome_iff_eq_none] at hpc
    obtain ⟨rfl, rfl⟩ := hv.eq_of_run (.strayed hpc) hrun
    exact ⟨⟨_, rfl, rfl⟩, rfl, rfl⟩

end State

/-- No standard instruction fails with the failure of the step limit. -/
theorem Standard.hasStepLimit_of_exec {α : Type} {i : Standard} {arg : Value} {s : State α}
    {e : Failure} (h : (exec i arg s).1 = .failed e) : e.hasStepLimit = false := by
  rcases i.exec_cases arg s with ⟨hmore, -⟩ | ⟨hhalt, -⟩ | ⟨hshort, -⟩ | ⟨hdiv, -⟩
  · rw [hmore] at h
    cases h
  · rw [hhalt] at h
    cases h
  · rw [hshort] at h
    cases h
    rfl
  · rw [hdiv] at h
    cases h
    rfl

open State

/-- Over the standard instructions the limit is reported exactly if it is reached. -/
theorem Standard.isStepLimit_iff_reachesLimit {code : Code} {signals : Signals}
    {s t : State Standard} {fuel : Nat} {ending : Ending} (hpos : 0 < s.maxSteps)
    (hrun : s.run code signals fuel = some (ending, t)) :
    ending.isStepLimit = true ↔ ReachesLimit code signals s := by
  have hnever : ¬ FailsLikeLimit code signals s :=
    not_failsLikeLimit keep_meter s.only_true fun _ _ _ _ _ hfailed => hasStepLimit_of_exec hfailed
  rw [isStepLimit_iff keep_meter s.only_true hpos hrun, or_iff_left hnever]

/-- Two steps are left. A run that halts on the second succeeds, one that walks out of the code is
told so, and one that jumps back is stopped by the limit, with the value that it has put on the
stack. -/
theorem run_bounded_lastStep :
    let s : State Standard := { registry := .standard, steps := 5, maxSteps := 7 }
    (∃ t, s.run #[⟨1, 9⟩, ⟨2, 0⟩] .none 3 = some (.value 9, t)) ∧
    (∃ e t, s.run #[⟨1, 9⟩, ⟨8, 0⟩] .none 3 = some (.failure e, t) ∧ e.kind? = some .segfault) ∧
    ∃ t, s.run #[⟨1, 9⟩, ⟨9, 0⟩] .none 3 = some (.failure t.exhausted, t) ∧ t.stack = [9] ∧
      t.steps.toInt = 7 := by
  intro s
  have hbounds : ∀ code, ∃ ending t, s.run code .none 3 = some (ending, t) ∧
      Bounded code .none s 3 ending t :=
    fun code => run_bounded Standard.keep_meter code .none s.only_true (by decide) (by decide)
  refine ⟨?_, ?_, ?_⟩
  · obtain ⟨ending, t, hrun, hbounded⟩ := hbounds #[⟨1, 9⟩, ⟨2, 0⟩]
    have hbegins : Arrives #[⟨1, 9⟩, ⟨2, 0⟩] .none s 0 _ := .enter
    have harrives := hbegins
      |>.next (i := ⟨1, 9⟩) (ready_eq_ok_iff.mpr (by decide)) rfl
    obtain ⟨rfl, -⟩ :=
      hbounded.of_halt 1 _ ⟨2, 0⟩ _ 9 harrives (ready_eq_ok_iff.mpr (by decide)) rfl rfl rfl
    exact ⟨t, hrun⟩
  · obtain ⟨ending, t, hrun, hbounded⟩ := hbounds #[⟨1, 9⟩, ⟨8, 0⟩]
    have hbegins : Arrives #[⟨1, 9⟩, ⟨8, 0⟩] .none s 0 _ := .enter
    have harrives := hbegins
      |>.next (i := ⟨1, 9⟩) (ready_eq_ok_iff.mpr (by decide)) rfl
      |>.next (i := ⟨8, 0⟩) (ready_eq_ok_iff.mpr (by decide)) rfl
    obtain ⟨⟨e, rfl, hkind⟩, -⟩ := hbounded.of_outside 2 _ harrives (by decide) rfl
    exact ⟨e, t, hrun, hkind⟩
  · obtain ⟨ending, t, hrun, hbounded⟩ := hbounds #[⟨1, 9⟩, ⟨9, 0⟩]
    have hbegins : Arrives #[⟨1, 9⟩, ⟨9, 0⟩] .none s 0 _ := .enter
    have harrives := hbegins
      |>.next (i := ⟨1, 9⟩) (ready_eq_ok_iff.mpr (by decide)) rfl
      |>.next (i := ⟨9, 0⟩) (ready_eq_ok_iff.mpr (by decide)) rfl
    obtain ⟨rfl, hlength, request, hleft⟩ :=
      hbounded.of_reachesLimit ⟨2, _, harrives, by decide, by decide⟩
    refine ⟨t, hrun, ?_, ?_⟩
    · rw [hleft]
      show (leftBy _ s (trail _ .none 3 0 (s.enter _))).stack = [9]
      decide
    · rw [hbounded.steps_eq, hlength]
      rfl

end StackMachine
