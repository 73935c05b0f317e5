import StackMachine.Proofs.Protocol

/-!
# A worker that goes on

As long as a worker is not stopped, nobody who calls it is left without an answer for want of a step
to take: where the jobs in its hands come to an end, the steps of the loop empty the queue
(`Run.exists_drained`), and a call can be led to its answer (`Run.exists_returned`). Nothing is said
about when this happens; that is up to whoever schedules the steps.

A job may come to an end on some registries only, so the statements have a property of registries
that the jobs keep (`Job.Ends`).
-/

namespace StackMachine

/-- On a registry with a certain property the job comes to an end and leaves one with
that property. -/
def Job.Ends {α β : Type} (P : Registry α → Prop) (job : Job α β) : Prop :=
  ∀ r, P r → ∃ answer r', job r = some (answer, r') ∧ P r'

namespace Protocol

variable {ι σ α β : Type} [DecidableEq ι] [DecidableEq σ] {jobs : ι → Job α β} {r : Registry α}
  {events : List (Event ι σ)} {c d : Config ι σ α β} {e : Event ι σ} {k : ι} {P : Registry α → Prop}

/-! ## Where a waiting call stands -/

/-- The jobs that entered the queue and are not delivered, the first to enter in front. -/
def Config.pending (c : Config ι σ α β) : List ι := c.loop.outgoing ++ c.loop.inHand ++ c.queue

theorem Step.pending_of_sent (h : Step jobs c (.sent k) d) : d.pending = c.pending ++ [k] := by
  cases h with
  | sent => simp [Config.pending, Config.setCall]

/-- A step leaves the pending jobs alone, or puts one behind them, or delivers the first. -/
theorem Step.pending_cases (h : Step jobs c e d) :
    d.pending = c.pending ∨
    (∃ k, d.pending = c.pending ++ [k]) ∨
    ∃ k a, c.pending = k :: d.pending ∧ d.results k = some a := by
  cases h with
  | @sent k hcall hroom =>
    have hsent : Step jobs c (.sent k) _ := .sent hcall hroom
    exact .inr (.inl ⟨k, hsent.pending_of_sent⟩)
  | taken hloop hqueue =>
    refine .inl ?_
    simp [Config.pending, hloop, hqueue, Loop.inHand, Loop.outgoing]
  | finished hloop =>
    refine .inl ?_
    simp [Config.pending, hloop, Loop.inHand, Loop.outgoing]
  | @delivered k a hloop =>
    refine .inr (.inr ⟨k, a, ?_, Function.update_self ..⟩)
    simp [Config.pending, hloop, Loop.inHand, Loop.outgoing]
  | ended hloop =>
    refine .inl ?_
    simp [Config.pending, hloop, Loop.inHand, Loop.outgoing]
  | _ => exact .inl rfl

/-- A call that waits has its job pending or its answer ready. -/
theorem Run.mem_pending (h : Run jobs (.start r) events c) (hcall : c.calls k = .waiting) :
    k ∈ c.pending ∨ ∃ a, c.results k = some a := by
  induction h with
  | start => cases hcall
  | @step events c e d _ hstep ih =>
    rcases hstep.waiting_cases hcall with hwaiting | rfl
    · rcases ih hwaiting with hpending | ⟨a, hresult⟩
      · rcases hstep.pending_cases with heq | ⟨k', heq⟩ | ⟨k', a, heq, hresult⟩
        · exact .inl (heq ▸ hpending)
        · exact .inl (heq ▸ List.mem_append_left _ hpending)
        · rw [heq, List.mem_cons] at hpending
          rcases hpending with rfl | hpending
          · exact .inr ⟨a, hresult⟩
          · exact .inl hpending
      · rcases hstep.result_cases k with hsame | ⟨⟨a', hreturned⟩, -⟩ | ⟨a', -, -, hput⟩
        · exact .inr ⟨a, hsame.trans hresult⟩
        · rw [hreturned] at hcall
          cases hcall
        · exact .inr ⟨a', hput⟩
    · rw [hstep.pending_of_sent]
      exact .inl (by simp)

/-! ## Emptying the queue -/

/-- How many steps the loop has to make for the jobs pending. -/
def Config.backlog (c : Config ι σ α β) : Nat :=
  c.loop.outgoing.length + 2 * c.loop.inHand.length + 3 * c.queue.length

/-- While jobs are pending the loop can make a step, and has one step less to make then. -/
theorem Run.exists_loop_step (h : Run jobs (.start r) events c) (hquit : c.quit = false)
    (hr : P c.registry) (hends : ∀ k ∈ c.pending, (jobs k).Ends P) (hpending : c.pending ≠ []) :
    ∃ e d, Step jobs c e d ∧ d.backlog < c.backlog ∧ d.pending ⊆ c.pending ∧
      d.calls = c.calls ∧ d.quit = false ∧ P d.registry := by
  cases hloop : c.loop with
  | idle =>
    cases hqueue : c.queue with
    | nil =>
      refine absurd ?_ hpending
      rw [Config.pending, hloop, hqueue]
      rfl
    | cons k rest =>
      refine ⟨_, _, .taken hloop hqueue, ?_, ?_, rfl, hquit, hr⟩
      · simp [Config.backlog, hloop, hqueue, Loop.inHand, Loop.outgoing]
        omega
      · simp [Config.pending, hloop, hqueue, Loop.inHand, Loop.outgoing]
  | working k =>
    have hk : k ∈ c.pending := by simp [Config.pending, hloop, Loop.inHand]
    obtain ⟨answer, r', hjob, hr'⟩ := hends k hk c.registry hr
    have hperform := Worker.perform_eq_some_iff.mpr ⟨answer, r', hjob, rfl, rfl⟩
    refine ⟨_, _, .finished hloop hperform, ?_, ?_, rfl, hquit, hr'⟩
    · simp [Config.backlog, hloop, Loop.inHand, Loop.outgoing]
    · simp [Config.pending, hloop, Loop.inHand, Loop.outgoing]
  | delivering k a =>
    refine ⟨_, _, .delivered hloop (h.results_eq_none hloop), ?_, ?_, rfl, hquit, hr⟩
    · simp [Config.backlog, hloop, Loop.inHand, Loop.outgoing]
    · simp [Config.pending, hloop, Loop.inHand, Loop.outgoing]
  | ended =>
    have hclosed := h.quit_of_ended hloop
    rw [hquit] at hclosed
    cases hclosed

/-- The loop can see to all jobs pending while everyone else waits. -/
theorem Run.exists_drained (h : Run jobs (.start r) events c) (hquit : c.quit = false)
    (hr : P c.registry) (hends : ∀ k ∈ c.pending, (jobs k).Ends P) :
    ∃ more d, Run jobs c more d ∧ d.pending = [] ∧ d.calls = c.calls ∧ d.quit = false ∧
      P d.registry := by
  generalize hn : c.backlog = n
  induction n using Nat.strong_induction_on generalizing events c with
  | _ n ih =>
    by_cases hpending : c.pending = []
    · exact ⟨[], c, .start, hpending, rfl, hquit, hr⟩
    · obtain ⟨e, d, hstep, hless, hsubset, hcalls, hquit', hr'⟩ :=
        h.exists_loop_step hquit hr hends hpending
      obtain ⟨more, d', hrun, hnone, hcalls', hquit'', hr''⟩ :=
        ih d.backlog (hn ▸ hless) (h.step hstep) hquit' hr' (fun k hk => hends k (hsubset hk)) rfl
      exact ⟨[e] ++ more, d', (Run.start.step hstep).trans hrun, hnone, hcalls'.trans hcalls,
        hquit'', hr''⟩

/-! ## Leading a call to its answer -/

theorem Run.exists_returned_of_waiting (h : Run jobs (.start r) events c) (hquit : c.quit = false)
    (hr : P c.registry) (hends : ∀ k ∈ c.pending, (jobs k).Ends P) (hcall : c.calls k = .waiting) :
    ∃ more d a, Run jobs c more d ∧ d.quit = false ∧ d.calls k = .returned a := by
  obtain ⟨more, d, hrun, hnone, hcalls, hquit', -⟩ := h.exists_drained hquit hr hends
  have hcall' : d.calls k = .waiting := by rw [hcalls, hcall]
  obtain ⟨a, hresult⟩ : ∃ a, d.results k = some a := by
    have hstands := (h.trans hrun).mem_pending hcall'
    rw [hnone] at hstands
    exact hstands.resolve_left List.not_mem_nil
  exact ⟨_, _, a, hrun.step (.received hcall' hresult), hquit', Config.calls_setCall_self ..⟩

theorem Run.exists_returned_of_sending (h : Run jobs (.start r) events c) (hquit : c.quit = false)
    (hr : P c.registry) (hends : ∀ k' ∈ k :: c.pending, (jobs k').Ends P)
    (hcall : c.calls k = .sending) :
    ∃ more d a, Run jobs c more d ∧ d.quit = false ∧ d.calls k = .returned a := by
  -- an empty queue has room
  obtain ⟨more, d, hrun, hnone, hcalls, hquit', hr'⟩ :=
    h.exists_drained hquit hr fun k' hk' => hends k' (List.mem_cons_of_mem k hk')
  have hqueue : d.queue = [] := (List.append_eq_nil_iff.mp hnone).2
  have hsent : Step jobs d (.sent k) _ := .sent (by rw [hcalls, hcall]) (by simp [hqueue, capacity])
  have hends' : ∀ k' ∈ d.pending ++ [k], (jobs k').Ends P := by
    rw [hnone]
    intro k' hk'
    exact hends k' (List.mem_cons.mpr (.inl (List.mem_singleton.mp hk')))
  obtain ⟨more', d', a, hrun', hreturned⟩ :=
    ((h.trans hrun).step hsent).exists_returned_of_waiting hquit' hr'
      (hsent.pending_of_sent ▸ hends')
      (d.calls_setCall_self k _)
  exact ⟨_, d', a, (hrun.step hsent).trans hrun', hreturned⟩

theorem Run.exists_returned_of_asking (h : Run jobs (.start r) events c) (hquit : c.quit = false)
    (hr : P c.registry) (hends : ∀ k' ∈ k :: c.pending, (jobs k').Ends P)
    (hcall : c.calls k = .asking) :
    ∃ more d a, Run jobs c more d ∧ d.quit = false ∧ d.calls k = .returned a := by
  have hpassed : Step jobs c (.passed k) _ := .passed hcall hquit
  obtain ⟨more, d, a, hrun, hreturned⟩ :=
    (h.step hpassed).exists_returned_of_sending hquit hr hends (c.calls_setCall_self k _)
  exact ⟨_, d, a, (Run.start.step hpassed).trans hrun, hreturned⟩

/-- A call to a worker that is not stopped can be led to its answer, if its own job and those
pending come to an end. -/
theorem Run.exists_returned (h : Run jobs (.start r) events c) (hquit : c.quit = false)
    (hr : P c.registry) (hends : ∀ k' ∈ k :: c.pending, (jobs k').Ends P) :
    ∃ more d a, Run jobs c more d ∧ d.quit = false ∧ d.calls k = .returned a := by
  cases hcall : c.calls k with
  | unmade =>
    have hmade : Step jobs c (.made k) _ := .made hcall
    obtain ⟨more, d, a, hrun, hreturned⟩ :=
      (h.step hmade).exists_returned_of_asking hquit hr hends (c.calls_setCall_self k _)
    exact ⟨_, d, a, (Run.start.step hmade).trans hrun, hreturned⟩
  | asking => exact h.exists_returned_of_asking hquit hr hends hcall
  | sending => exact h.exists_returned_of_sending hquit hr hends hcall
  | waiting =>
    exact h.exists_returned_of_waiting hquit hr
      (fun k' hk' => hends k' (List.mem_cons_of_mem k hk')) hcall
  | returned a => exact ⟨[], c, a, .start, hquit, hcall⟩

end Protocol

end StackMachine
