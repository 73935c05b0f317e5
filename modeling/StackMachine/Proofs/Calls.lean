import StackMachine.Proofs.Protocol
import StackMachine.Standard

/-!
# What callers of a worker may rely on

`taken_returned_of_run` gathers what the protocol of a worker promises, however the steps of its
callers, of its loop and of those who stop it interleave. Jobs are carried out one at a time, in the
order in which they entered the queue and each at most once. A call returns what its own job comes
to, or hears that the worker was stopped. A job that breaks down leaves the loop running and other
answers as they are. A call made after the worker was stopped hears so, and its job is not taken up.

Two facts go beyond the account of events in `Protocol`. `Late` is what holds of a call that is made
too late. `Config.Alike` relates two states that differ in nothing but answers: jobs that leave the
same registries behind can be exchanged for one another in a run, and whoever has kept their job has
the same answer (`Run.exchange`).
-/

namespace StackMachine

open Text

namespace Worker

variable {α β : Type}

/-- Whether a job comes to an end, and what it leaves, are the same for jobs with the
same effect. -/
theorem perform_of_same_effect {job job' : Job α β} {r : Registry α} {a : Except WorkerError β}
    {w : Worker α} (heffect : (job' r).map Prod.snd = (job r).map Prod.snd)
    (h : perform ⟨r, false⟩ job = some (a, w)) : ∃ b, perform ⟨r, false⟩ job' = some (b, w) := by
  obtain ⟨answer, r', hjob, -, rfl⟩ := perform_eq_some_iff.mp h
  rw [hjob, Option.map_some, Option.map_eq_some_iff] at heffect
  obtain ⟨⟨answer', r''⟩, hjob', rfl⟩ := heffect
  exact ⟨_, perform_eq_some_iff.mpr ⟨answer', r'', hjob', rfl, rfl⟩⟩

end Worker

namespace Protocol

variable {ι σ α β : Type} [DecidableEq ι] [DecidableEq σ] {jobs jobs' : ι → Job α β}
  {r : Registry α} {events : List (Event ι σ)} {c c' d : Config ι σ α β} {e : Event ι σ} {k : ι}

/-! ## Calls made too late -/

/-- The worker is stopped, and the call has not got past its test. -/
def Late (k : ι) (c : Config ι σ α β) : Prop :=
  c.quit = true ∧
    (c.calls k = .unmade ∨ c.calls k = .asking ∨ c.calls k = .returned (.error .stopped))

theorem Late.step (h : Late k c) (hstep : Step jobs c e d) : Late k d ∧ k ∉ sent [e] := by
  obtain ⟨hquit, hcall⟩ := h
  refine ⟨⟨hstep.quit hquit, ?_⟩, ?_⟩
  · rcases hstep.call_cases k with
      hkept | ⟨-, hnow⟩ | ⟨-, hopen, -⟩ | ⟨hsending, -⟩ | ⟨-, -, hnow⟩ |
      ⟨hwaiting, -⟩
    · rwa [hkept]
    · exact .inr (.inl hnow)
    · rw [hquit] at hopen
      cases hopen
    · simp [hsending] at hcall
    · exact .inr (.inr hnow)
    · simp [hwaiting] at hcall
  · rcases sent_of_step hstep with hnone | ⟨k', hsent, hsending, -⟩
    · simp [hnone]
    · rw [hsent, List.mem_singleton]
      rintro rfl
      simp [hsending] at hcall

theorem Run.late (h : Run jobs c events d) (hlate : Late k c) : Late k d ∧ k ∉ sent events := by
  induction h with
  | start => exact ⟨hlate, by simp [sent]⟩
  | step _ hstep ih =>
    obtain ⟨hlast, hnot⟩ := ih.1.step hstep
    rw [sent_append, List.mem_append]
    exact ⟨hlast, not_or.mpr ⟨ih.2, hnot⟩⟩

/-- A call that is late has heard so, or can go on to hear so, unless it is yet to be made. -/
theorem Late.answer (h : Late k c) :
    c.calls k = .unmade ∨
    c.calls k = .asking ∧
      (∃ d, Step jobs c (.refused k) d ∧ d.calls k = .returned (.error .stopped)) ∨
    c.calls k = .returned (.error .stopped) := by
  obtain ⟨hquit, hcall | hcall | hcall⟩ := h
  · exact .inl hcall
  · exact .inr (.inl ⟨hcall, _, .refused hcall hquit, c.calls_setCall_self k _⟩)
  · exact .inr (.inr hcall)

/-! ## Jobs exchanged for others -/

/-- Two states that differ in nothing but answers, and not in those of calls that keep their job. -/
structure Config.Alike (keeps : ι → Prop) (c d : Config ι σ α β) : Prop where
  registry_eq : d.registry = c.registry
  queue_eq : d.queue = c.queue
  quit_eq : d.quit = c.quit
  stops_eq : d.stops = c.stops
  loop : d.loop = c.loop ∨
    ∃ k a b, ¬keeps k ∧ c.loop = .delivering k a ∧ d.loop = .delivering k b
  results : ∀ k, d.results k = c.results k ∨
    ¬keeps k ∧ ∃ a b, c.results k = some a ∧ d.results k = some b
  calls : ∀ k, d.calls k = c.calls k ∨
    ¬keeps k ∧ ∃ a b, c.calls k = .returned a ∧ d.calls k = .returned b

namespace Config.Alike

variable {keeps : ι → Prop}

omit [DecidableEq ι] [DecidableEq σ] in
theorem refl (c : Config ι σ α β) : c.Alike keeps c :=
  ⟨rfl, rfl, rfl, rfl, .inl rfl, fun _ => .inl rfl, fun _ => .inl rfl⟩

omit [DecidableEq ι] [DecidableEq σ] in
/-- Calls that have not returned are at the same stage. -/
theorem call_eq (h : c.Alike keeps d) (hopen : ∀ a, c.calls k ≠ .returned a) :
    d.calls k = c.calls k := by
  rcases h.calls k with heq | ⟨-, a, -, hc, -⟩
  · exact heq
  · exact absurd hc (hopen a)

omit [DecidableEq ι] [DecidableEq σ] in
theorem loop_eq (h : c.Alike keeps d) (hfree : ∀ k a, c.loop ≠ .delivering k a) :
    d.loop = c.loop := by
  rcases h.loop with heq | ⟨k, a, -, -, hc, -⟩
  · exact heq
  · exact absurd hc (hfree k a)

omit [DecidableEq ι] [DecidableEq σ] in
theorem delivering (h : c.Alike keeps d) {a : Except WorkerError β}
    (hloop : c.loop = .delivering k a) :
    ∃ b, d.loop = .delivering k b ∧ (b = a ∨ ¬keeps k) := by
  rcases h.loop with heq | ⟨k', a', b, hkeeps, hc, hd⟩
  · exact ⟨a, heq.trans hloop, .inl rfl⟩
  · rw [hloop] at hc
    cases hc
    exact ⟨b, hd, .inr hkeeps⟩

omit [DecidableEq ι] [DecidableEq σ] in
theorem result (h : c.Alike keeps d) {a : Except WorkerError β} (hresult : c.results k = some a) :
    ∃ b, d.results k = some b ∧ (b = a ∨ ¬keeps k) := by
  rcases h.results k with heq | ⟨hkeeps, a', b, -, hd⟩
  · exact ⟨a, heq.trans hresult, .inl rfl⟩
  · exact ⟨b, hd, .inr hkeeps⟩

omit [DecidableEq ι] [DecidableEq σ] in
theorem result_none (h : c.Alike keeps d) (hresult : c.results k = none) : d.results k = none := by
  rcases h.results k with heq | ⟨-, a, -, hc, -⟩
  · exact heq.trans hresult
  · rw [hresult] at hc
    cases hc

omit [DecidableEq σ] in
theorem setResult (h : c.Alike keeps d) {x y : Option (Except WorkerError β)}
    (hresult : y = x ∨ ¬keeps k ∧ ∃ a b, x = some a ∧ y = some b) :
    Config.Alike keeps { c with results := Function.update c.results k x }
      { d with results := Function.update d.results k y } := by
  refine ⟨h.registry_eq, h.queue_eq, h.quit_eq, h.stops_eq, h.loop, fun k' => ?_, h.calls⟩
  by_cases hk : k' = k
  · subst hk
    simpa only [Function.update_self] using hresult
  · simpa only [Function.update_of_ne hk] using h.results k'

omit [DecidableEq σ] in
theorem setCall (h : c.Alike keeps d) {x y : Call β}
    (hcall : y = x ∨ ¬keeps k ∧ ∃ a b, x = .returned a ∧ y = .returned b) :
    (c.setCall k x).Alike keeps (d.setCall k y) := by
  refine ⟨h.registry_eq, h.queue_eq, h.quit_eq, h.stops_eq, h.loop, h.results, fun k' => ?_⟩
  by_cases hk : k' = k
  · subst hk
    rwa [calls_setCall_self, calls_setCall_self]
  · rw [calls_setCall_of_ne _ hk, calls_setCall_of_ne _ hk]
    exact h.calls k'

omit [DecidableEq ι] in
theorem setStop (h : c.Alike keeps d) (j : σ) (stop : Stop) :
    (c.setStop j stop).Alike keeps (d.setStop j stop) := by
  refine ⟨h.registry_eq, h.queue_eq, h.quit_eq, ?_, h.loop, h.results, h.calls⟩
  show Function.update d.stops j stop = Function.update c.stops j stop
  rw [h.stops_eq]

end Config.Alike

/-- A step is open in a state alike, with jobs of the same effect, and leads to states alike. -/
theorem Step.exchange (heffect : ∀ k r, (jobs' k r).map Prod.snd = (jobs k r).map Prod.snd)
    (hstep : Step jobs c e c') (h : c.Alike (fun k => jobs' k = jobs k) d) :
    ∃ d', Step jobs' d e d' ∧ c'.Alike (fun k => jobs' k = jobs k) d' := by
  cases hstep with
  | @made k hcall =>
    have hcall' := (h.call_eq (by simp [hcall])).trans hcall
    exact ⟨_, .made hcall', h.setCall (.inl rfl)⟩
  | @refused k hcall hquit =>
    have hcall' := (h.call_eq (by simp [hcall])).trans hcall
    exact ⟨_, .refused hcall' (h.quit_eq.trans hquit), h.setCall (.inl rfl)⟩
  | @passed k hcall hquit =>
    have hcall' := (h.call_eq (by simp [hcall])).trans hcall
    exact ⟨_, .passed hcall' (h.quit_eq.trans hquit), h.setCall (.inl rfl)⟩
  | @sent k hcall hroom =>
    have hcall' := (h.call_eq (by simp [hcall])).trans hcall
    refine ⟨_, .sent hcall' (h.queue_eq ▸ hroom), ?_⟩
    have hset := h.setCall (k := k) (x := .waiting) (.inl rfl)
    exact ⟨hset.registry_eq, congrArg (· ++ [k]) h.queue_eq, hset.quit_eq, hset.stops_eq, hset.loop,
      hset.results, hset.calls⟩
  | @gaveUp k hcall hquit =>
    have hcall' : d.calls k = .sending ∨ d.calls k = .waiting := by
      rw [h.call_eq (by rcases hcall with hcall | hcall <;> simp [hcall])]
      exact hcall
    exact ⟨_, .gaveUp hcall' (h.quit_eq.trans hquit), h.setCall (.inl rfl)⟩
  | @received k a hcall hresult =>
    have hcall' := (h.call_eq (by simp [hcall])).trans hcall
    obtain ⟨b, hresult', hb⟩ := h.result hresult
    refine ⟨_, .received hcall' hresult', ?_⟩
    refine (h.setCall (k := k) (x := .returned a) (y := .returned b) ?_).setResult (.inl rfl)
    rcases hb with rfl | hk
    · exact .inl rfl
    · exact .inr ⟨hk, a, b, rfl, rfl⟩
  | @taken k rest hloop hqueue =>
    have hloop' := (h.loop_eq (by simp [hloop])).trans hloop
    exact ⟨_, .taken hloop' (h.queue_eq.trans hqueue), h.registry_eq, rfl, h.quit_eq, h.stops_eq,
      .inl rfl, h.results, h.calls⟩
  | @finished k a w hloop hperform =>
    have hloop' := (h.loop_eq (by simp [hloop])).trans hloop
    obtain ⟨b, hperform'⟩ := Worker.perform_of_same_effect (heffect k c.registry) hperform
    have hfinished : Step jobs' d (.finished k) _ := .finished hloop' (h.registry_eq ▸ hperform')
    refine ⟨_, hfinished, rfl, h.queue_eq, h.quit_eq, h.stops_eq, ?_, h.results, h.calls⟩
    by_cases hk : jobs' k = jobs k
    · -- the same job on the same registry has the same answer
      rw [hk, hperform] at hperform'
      obtain ⟨rfl, -⟩ := Prod.mk.inj (Option.some.inj hperform')
      exact .inl rfl
    · exact .inr ⟨k, a, b, hk, rfl, rfl⟩
  | @delivered k a hloop hroom =>
    obtain ⟨b, hloop', hb⟩ := h.delivering hloop
    refine ⟨_, .delivered hloop' (h.result_none hroom), ?_⟩
    have hset := h.setResult (k := k) (x := some a) (y := some b) <| by
      rcases hb with rfl | hk
      · exact .inl rfl
      · exact .inr ⟨hk, a, b, rfl, rfl⟩
    exact ⟨hset.registry_eq, hset.queue_eq, hset.quit_eq, hset.stops_eq, .inl rfl, hset.results,
      hset.calls⟩
  | ended hloop hquit =>
    have hloop' := (h.loop_eq (by simp [hloop])).trans hloop
    exact ⟨_, .ended hloop' (h.quit_eq.trans hquit), h.registry_eq, h.queue_eq, h.quit_eq,
      h.stops_eq, .inl rfl, h.results, h.calls⟩
  | @stopMade j hstop =>
    exact ⟨_, .stopMade (h.stops_eq ▸ hstop), h.setStop j _⟩
  | @stopSaw j hstop hquit =>
    exact ⟨_, .stopSaw (h.stops_eq ▸ hstop) (h.quit_eq.trans hquit), h.setStop j _⟩
  | @stopPassed j hstop hquit =>
    exact ⟨_, .stopPassed (h.stops_eq ▸ hstop) (h.quit_eq.trans hquit), h.setStop j _⟩
  | @closed j hstop hquit =>
    have hset := h.setStop j .returned
    exact ⟨_, .closed (h.stops_eq ▸ hstop) (h.quit_eq.trans hquit), hset.registry_eq, hset.queue_eq,
      rfl, hset.stops_eq, hset.loop, hset.results, hset.calls⟩
  | @stopBroke j hstop hquit =>
    exact ⟨_, .stopBroke (h.stops_eq ▸ hstop) (h.quit_eq.trans hquit), h.setStop j _⟩

/-- Where jobs are exchanged for others that leave the same registries behind, the same steps lead
to the same registry, and those who have kept their job have the same answer. -/
theorem Run.exchange (heffect : ∀ k r, (jobs' k r).map Prod.snd = (jobs k r).map Prod.snd)
    (h : Run jobs c events c') :
    ∃ d, Run jobs' c events d ∧ c'.Alike (fun k => jobs' k = jobs k) d := by
  induction h with
  | start => exact ⟨c, .start, .refl c⟩
  | step _ hstep ih =>
    obtain ⟨d, hrun, halike⟩ := ih
    obtain ⟨d', hstep', halike'⟩ := hstep.exchange heffect halike
    exact ⟨d', hrun.step hstep', halike'⟩

/-! ## The promises of a worker -/

/-- However the calls for jobs, the loop and the calls to stop the worker interleave:

* jobs are taken up in the order in which they entered the queue, each at most once, and one after
  another: all that were taken up are finished but for the one in hand, and the registry is the one
  that the finished jobs leave when they are carried out in this order;
* a call that does not return that the worker was stopped returns what its own job, taken up once,
  came to on the registry that it found: the value, or the message of the breakdown and no value;
* the loop ends only where a call has closed the worker, and whatever a job came to, the loop can
  hand it over and be free for the next one; were other jobs in the place of some, and left they the
  same registries behind, the same steps would lead to the same registry and the same answers for
  all others;
* a call that was not yet made when a call to stop the worker had returned puts nothing into the
  queue and has nothing carried out; it is not refused its answer, and the answer is that the worker
  was stopped. -/
theorem taken_returned_of_run (h : Run jobs (.start r) events c) :
    (taken events <+: sent events ∧ (taken events).Nodup ∧
      taken events = finished events ++ c.loop.inHand ∧
      Worker.performAll jobs ⟨r, false⟩ (finished events) = some ⟨c.registry, false⟩) ∧
    (∀ k a, c.calls k = .returned a → a ≠ .error .stopped →
      (taken events).count k = 1 ∧
      ∃ before after found left, finished events = before ++ k :: after ∧
        Worker.performAll jobs ⟨r, false⟩ before = some ⟨found, false⟩ ∧
        ((∃ v, jobs k found = some (.ok v, left) ∧ a = .ok v) ∨
          ∃ message, jobs k found = some (.error message, left) ∧ a = .error (.broke message))) ∧
    ((c.loop = .ended → ∃ j, .closed j ∈ events) ∧
      (∀ k a, c.loop = .delivering k a → ∃ d, Step jobs c (.delivered k) d ∧ d.loop = .idle) ∧
      ∀ jobs', (∀ k r, (jobs' k r).map Prod.snd = (jobs k r).map Prod.snd) →
        ∃ d, Run jobs' (.start r) events d ∧ d.registry = c.registry ∧
          ∀ k, jobs' k = jobs k → d.calls k = c.calls k) ∧
    ∀ before after b j k, events = before ++ after → Run jobs (.start r) before b →
      Run jobs b after c → b.stops j = .returned → b.calls k = .unmade →
      k ∉ sent events ∧ k ∉ taken events ∧
        (c.calls k = .unmade ∨
          c.calls k = .asking ∧
            (∃ d, Step jobs c (.refused k) d ∧ d.calls k = .returned (.error .stopped)) ∨
          c.calls k = .returned (.error .stopped)) := by
  have haccount := h.accounted
  have htakenSent : taken events <+: sent events := ⟨c.queue, haccount.sent_eq.symm⟩
  have hnodup : (taken events).Nodup := h.nodup_sent.1.sublist htakenSent.sublist
  refine ⟨⟨htakenSent, hnodup, haccount.taken_eq, haccount.performAll_eq⟩, ?_, ⟨?_, ?_, ?_⟩, ?_⟩
  · intro k a hreturned hstopped
    have hanswered := (h.faithful.returned k a hreturned).resolve_left hstopped
    have htaken : k ∈ taken events := by
      rw [haccount.taken_eq]
      exact List.mem_append_left _ hanswered.mem
    refine ⟨List.count_eq_one_of_mem hnodup htaken, ?_⟩
    obtain ⟨before, after, found, w, hsplit, hbefore, hperform⟩ := hanswered
    obtain ⟨answer, left, hjob, rfl, -⟩ := Worker.perform_eq_some_iff.mp hperform
    refine ⟨before, after, found, left, hsplit, hbefore, ?_⟩
    cases answer with
    | ok v => exact .inl ⟨v, hjob, rfl⟩
    | error message => exact .inr ⟨message, hjob, rfl⟩
  · intro hended
    exact h.exists_closed (h.quit_of_ended hended)
  · intro k a hloop
    exact ⟨_, .delivered hloop (h.results_eq_none hloop), rfl⟩
  · intro jobs' heffect
    obtain ⟨d, hrun, halike⟩ := h.exchange heffect
    refine ⟨d, hrun, halike.registry_eq, fun k hk => ?_⟩
    exact (halike.calls k).resolve_right fun hdiffer => hdiffer.1 hk
  · intro before after b j k hevents hbefore hafter hj hk
    have hlate : Late k b := ⟨hbefore.quit_of_returned hj, .inl hk⟩
    obtain ⟨hlast, hafterwards⟩ := hafter.late hlate
    have hearlier : k ∉ sent before := by
      intro hsent
      have hpast := hbefore.nodup_sent.2 k hsent
      rwa [hk] at hpast
    have hsent : k ∉ sent events := by
      rw [hevents, sent_append, List.mem_append]
      exact not_or.mpr ⟨hearlier, hafterwards⟩
    exact ⟨hsent, fun htaken => hsent (htakenSent.subset htaken), hlast.answer⟩

/-- Jobs to try a worker with: the first registers an instruction and breaks down, the others count
the instructions. -/
def trial : Nat → Job Standard Nat
  | 0 => fun r => some (.error (utf8 "boom"), r.push (utf8 "TWICE") .dup)
  | _ => fun r => some (.ok r.size, r)

/-- The same jobs, but for the first, which registers the instruction and does not break down. -/
def calmTrial : Nat → Job Standard Nat :=
  Function.update trial 0 fun r => some (.ok 7, r.push (utf8 "TWICE") .dup)

theorem calmTrial_effect (k : Nat) (r : Registry Standard) :
    (calmTrial k r).map Prod.snd = (trial k r).map Prod.snd := by
  cases k <;> rfl

/-- One job breaks down, the next one counts what it has registered, and a third comes too late. -/
theorem exists_trial_run :
    ∃ (before after : List (Event Nat Unit)) (b c : Config Nat Unit Standard Nat),
      Run trial (.start .empty) before b ∧ b.stops () = .returned ∧ b.calls 2 = .unmade ∧
      Run trial b after c ∧ c.loop = .ended ∧
      c.calls 0 = .returned (.error (.broke (utf8 "boom"))) ∧ c.calls 1 = .returned (.ok 1) ∧
      c.calls 2 = .returned (.error .stopped) := by
  have hstart {b : Config Nat Unit Standard Nat} : Run trial b [] b := .start
  have hbefore := (hstart (b := .start .empty)).step (.made (k := 0) rfl)
    |>.step (.passed (k := 0) rfl rfl)
    |>.step (.sent (k := 0) rfl (by decide))
    |>.step (.made (k := 1) rfl)
    |>.step (.passed (k := 1) rfl rfl)
    |>.step (.taken (k := 0) rfl rfl)
    |>.step (.sent (k := 1) rfl (by decide))
    |>.step (.finished (k := 0) rfl rfl)
    |>.step (.delivered (k := 0) rfl rfl)
    |>.step (.taken (k := 1) rfl rfl)
    |>.step (.received (k := 0) rfl rfl)
    |>.step (.finished (k := 1) rfl rfl)
    |>.step (.delivered (k := 1) rfl rfl)
    |>.step (.stopMade (j := ()) rfl)
    |>.step (.stopPassed (j := ()) rfl rfl)
    |>.step (.closed (j := ()) rfl rfl)
  refine ⟨_, _, _, _, hbefore, rfl, rfl, hstart.step (.made (k := 2) rfl)
    |>.step (.refused (k := 2) rfl rfl)
    |>.step (.received (k := 1) rfl rfl)
    |>.step (.ended rfl rfl), rfl, rfl, rfl, rfl⟩

/-- In such a run the second job is taken up once and the third not at all, and the second has the
same answer when the first does not break down. -/
theorem taken_returned_of_run_trial :
    ∃ (before after : List (Event Nat Unit)) (b c : Config Nat Unit Standard Nat),
      Run trial (.start .empty) before b ∧ b.stops () = .returned ∧ b.calls 2 = .unmade ∧
      Run trial b after c ∧ c.calls 0 = .returned (.error (.broke (utf8 "boom"))) ∧
      c.calls 1 = .returned (.ok 1) ∧ c.calls 2 = .returned (.error .stopped) ∧
      (∃ j, .closed j ∈ before ++ after) ∧
      (taken (before ++ after)).count 1 = 1 ∧ 2 ∉ taken (before ++ after) ∧
      ∃ d, Run calmTrial (.start .empty) (before ++ after) d ∧ d.calls 1 = .returned (.ok 1) := by
  obtain ⟨before, after, b, c, hbefore, hstopped, hunmade, hafter, hended, hfirst, hsecond,
      hthird⟩ :=
    exists_trial_run
  obtain ⟨-, hanswers, ⟨hclosed, -, hexchange⟩, hlate⟩ :=
    taken_returned_of_run (hbefore.trans hafter)
  obtain ⟨honce, -⟩ := hanswers 1 (.ok 1) hsecond (by simp)
  obtain ⟨-, hnever, -⟩ := hlate before after b () 2 rfl hbefore hafter hstopped hunmade
  obtain ⟨d, hcalm, -, hsame⟩ := hexchange calmTrial calmTrial_effect
  exact ⟨before, after, b, c, hbefore, hstopped, hunmade, hafter, hfirst, hsecond, hthird,
    hclosed hended, honce, hnever, d, hcalm, (hsame 1 rfl).trans hsecond⟩

end Protocol

end StackMachine
