import StackMachine.Proofs.Arrivals
import StackMachine.Proofs.Endings

/-!
# Requests to stop are noticed in time

The head of the loop looks for a request to stop only when the step count is a multiple of the poll
interval. Steps are counted one by one and nothing else moves the count, so no multiple is passed
over: from any count the next one is less than an interval away (`untilPoll`), whatever the run
jumps to and also if the count wraps. A run that has been asked to stop therefore dispatches no more
than that many instructions (`run_concludes_of_interrupt`).
-/

namespace StackMachine

open Text

namespace State

variable {α : Type} [Action α] {P : α → Prop} {code : Code} {signals : Signals} {s u v t : State α}
  {n m fuel : Nat} {ending : Ending} {reason : Reason} {r : Interrupt}

/-- How many steps there are from a step count to the next multiple of the poll interval. -/
def untilPoll (steps : Int64) : Nat := ((1024 - steps.toInt % 1024) % 1024).toNat

omit [Action α] in
/-- A request to stop is noticed at a multiple of the poll interval. -/
theorem noticed_of_dvd (h : (1024 : Int) ∣ u.steps.toInt) : u.noticed = u.interrupt := by
  rw [noticed, if_pos (mod_pollInterval_of_dvd h)]

/-- Up to multiples of the poll interval, the step count tells the number of the turn. -/
theorem Arrives.dvd_steps (hkeep : Action.Keep P fun s : State α => s.steps)
    (hs : s.registry.Only P) (h : Arrives code signals s n u) :
    (1024 : Int) ∣ u.steps.toInt - (s.steps.toInt + n) := by
  induction h with
  | enter =>
    have hsteps : ((s.enter code).hear (signals 0)).steps = s.steps := by
      rw [enter_eq]
      rfl
    rw [hsteps]
    omega
  | @next n u i v h hready hdispatch ih =>
    have hsteps : v.steps = u.steps + 1 := by
      have hcount := hkeep.steps_dispatch (h.only hkeep hs) i
      rwa [hdispatch] at hcount
    have hnext := dvd_toInt_add_one u.steps
    change (1024 : Int) ∣ v.steps.toInt - (s.steps.toInt + (n + 1 : Nat))
    rw [hsteps]
    omega

/-- No turn finds an instruction to dispatch at the first multiple after a request to stop. -/
theorem Arrives.not_ready (hkeep : Action.Keep P fun s : State α => s.steps)
    (hs : s.registry.Only P) (h : Arrives code signals s n u)
    (h' : Arrives code signals s (n + untilPoll u.steps) v) (hv : v.interrupt = some r)
    (i : Instruction) : v.ready code ≠ .ok i := by
  intro hready
  have hdvd : (1024 : Int) ∣ v.steps.toInt := by
    have hn := h.dvd_steps hkeep hs
    have hm := h'.dvd_steps hkeep hs
    rw [untilPoll] at hm
    omega
  obtain ⟨-, -, hnoticed⟩ := ready_eq_ok_iff.mp hready
  rw [noticed_of_dvd hdvd, hv] at hnoticed
  cases hnoticed

/-- A run that has been asked to stop, and stays so, does not arrive beyond the next multiple. -/
theorem Arrives.le_untilPoll (hkeep : Action.Keep P fun s : State α => s.steps)
    (hs : s.registry.Only P) (h : Arrives code signals s n u)
    (hcanceled : ∀ m v, n ≤ m → Arrives code signals s m v → v.interrupt = some r)
    (h' : Arrives code signals s m v) : m ≤ n + untilPoll u.steps := by
  refine Nat.le_of_not_lt fun hlt => ?_
  obtain ⟨w, hw⟩ := h'.earlier (Nat.succ_le_of_lt hlt)
  cases hw with
  | next hpoll hready hdispatch =>
    exact h.not_ready hkeep hs hpoll (hcanceled _ _ (Nat.le_add_right _ _) hpoll) _ hready

/-- Nor does it dispatch more instructions: at the multiple itself it dispatches none. -/
theorem Arrives.dispatches_le (hkeep : Action.Keep P fun s : State α => s.steps)
    (hs : s.registry.Only P) (h : Arrives code signals s n u)
    (hcanceled : ∀ m v, n ≤ m → Arrives code signals s m v → v.interrupt = some r)
    (h' : Arrives code signals s m v) (hconcludes : Concludes code v reason ending t) :
    m + reason.dispatches ≤ n + untilPoll u.steps := by
  have hle := h.le_untilPoll hkeep hs hcanceled h'
  rcases hconcludes.cases with ⟨e, -, hcount, -⟩ | ⟨i, verdict, hready, hcount, -⟩
  · omega
  · have hne : m ≠ n + untilPoll u.steps := by
      rintro rfl
      exact h.not_ready hkeep hs h' (hcanceled _ _ (Nat.le_add_right _ _) h') i hready
    omega

/-- A run that is interrupted says by which request, at a multiple of the poll interval. -/
theorem Concludes.of_interrupted (h : Concludes code u .interrupted ending t)
    (hu : u.interrupt = some r) :
    (∃ e, ending = .failure e ∧ e.interrupt? = some r) ∧ (1024 : Int) ∣ t.steps.toInt := by
  cases h with
  | interrupted _ _ hnoticed =>
    rw [noticed] at hnoticed
    split at hnoticed
    · next hmod =>
      rw [hu] at hnoticed
      exact ⟨⟨_, rfl, hnoticed.symm⟩, dvd_of_mod_pollInterval hmod⟩
    · cases hnoticed

/-- A request stays where it is if no action withdraws it. -/
theorem Arrives.interrupt_of_le {β : Type} {f : State α → β} (hkeep : Action.Keep P f)
    (hs : s.registry.Only P)
    (hnever : ∀ a arg v, P a → v.interrupt = some r → (Action.exec a arg v).2.interrupt = some r)
    (h : Arrives code signals s n u) (hu : u.interrupt = some r) (hle : n ≤ m)
    (h' : Arrives code signals s m v) :
    v.interrupt = some r := by
  induction h' with
  | enter =>
    obtain rfl := Nat.le_zero.mp hle
    rw [← h.unique .enter, hu]
  | @next m w i v hw hready hdispatch ih =>
    rcases Nat.le_succ_iff.mp hle with hle | rfl
    · have hdispatched : v.interrupt = some r := by
        rcases w.dispatch_cases i with ⟨a, haction, heq⟩ | ⟨-, heq⟩
        · have htrace : (w.trace i).advance.interrupt = some r := by
            rw [trace_eq]
            exact ih hle
          have hexec := hnever a i.arg _ (hw.only hkeep hs _ a haction) htrace
          rwa [← heq, hdispatch] at hexec
        · rw [hdispatch] at heq
          cases heq
      rw [hear, hdispatched]
      rfl
    · rw [← h.unique (hw.next hready hdispatch), hu]

/-- **A request to stop is noticed in time**, over actions that leave the step count alone. Suppose
that the run arrives at the head of the loop with a request to stop, which reached it before or in
the course of the run, and that the request is not withdrawn. Then the run ends, and dispatches no
more instructions than there are steps to the next multiple of the poll interval. It may end for
another reason; if it does not, it ends with the request, at a multiple of the interval, and leaves
the state that the last instruction has left, apart from requests to stop. -/
theorem run_concludes_of_interrupt (hkeep : Action.Keep P fun s : State α => s.steps)
    (hs : s.registry.Only P) (harrives : Arrives code signals s n u)
    (hcanceled : ∀ m v, n ≤ m → Arrives code signals s m v → v.interrupt = some r)
    (hfuel : n + untilPoll u.steps < fuel) :
    ∃ ending t, s.run code signals fuel = some (ending, t) ∧
      (trail code signals fuel 0 (s.enter code)).length ≤ n + untilPoll u.steps ∧
      ∃ m v reason, n ≤ m ∧ Arrives code signals s m v ∧ Concludes code v reason ending t ∧
        (reason = .interrupted →
          (∃ e, ending = .failure e ∧ e.interrupt? = some r) ∧ (1024 : Int) ∣ t.steps.toInt ∧
          ∃ request, t =
            { leftBy code s (trail code signals fuel 0 (s.enter code)) with
              interrupt := request }) := by
  cases hrun : s.run code signals fuel with
  | none =>
    obtain ⟨v, hv⟩ := run_eq_none_iff.mp hrun
    exact absurd (harrives.le_untilPoll hkeep hs hcanceled hv) (Nat.not_le_of_lt hfuel)
  | some result =>
    obtain ⟨ending, t⟩ := result
    obtain ⟨m, v, reason, hm, hv, hconcludes⟩ := exists_concludes hrun
    have hle : n ≤ m := hv.le_of_concludes hconcludes harrives
    obtain ⟨hlength, hleft⟩ := hv.trail_of_concludes hconcludes hm
    refine ⟨ending, t, rfl, ?_, m, v, reason, hle, hv, hconcludes, ?_⟩
    · rw [hlength]
      exact harrives.dispatches_le hkeep hs hcanceled hv hconcludes
    · rintro rfl
      obtain ⟨hrequest, hdvd⟩ := hconcludes.of_interrupted (hcanceled m v hle hv)
      exact ⟨hrequest, hdvd, hleft⟩

end State

/-! ## An instruction that asks its own run to stop -/

/-- An instruction that does nothing, and one that asks for the end of the run. -/
inductive Hasty where
  | idle
  | cancel

def Hasty.exec : Hasty → Value → State Hasty → Verdict × State Hasty
  | idle, _, s => (.more, s)
  | cancel, _, s => (.more, s.hear (some .canceled))

instance : Action Hasty := ⟨Hasty.exec⟩

/-- The registry of the two. -/
def Hasty.registry : Registry Hasty :=
  (Registry.empty.push (utf8 "IDLE") idle).push (utf8 "CANCEL") cancel

theorem Hasty.keep : Action.Keep (fun _ => True) fun s : State Hasty => s.steps := by
  intro a arg s _ _
  cases a <;> exact ⟨rfl, fun _ _ _ => trivial⟩

theorem Hasty.interrupt_exec {r : Interrupt} (a : Hasty) (arg : Value) (s : State Hasty)
    (h : s.interrupt = some r) :
    (Action.exec a arg s).2.interrupt = some r := by
  cases a with
  | idle => exact h
  | cancel =>
    show (s.hear (some .canceled)).interrupt = some r
    rw [State.hear, h]
    rfl

open State

/-- The request is made by the step that brings the count to 1022. Two more instructions are
dispatched, and the run ends with the request when the count is 1024. -/
theorem run_concludes_of_interrupt_hasty :
    let code : Code := #[⟨1, 0⟩, ⟨0, 0⟩, ⟨0, 0⟩, ⟨0, 0⟩]
    let s : State Hasty := { registry := Hasty.registry, steps := 1021 }
    ∃ e t, s.run code .none 4 = some (.failure e, t) ∧ e.interrupt? = some .canceled ∧
      t.steps.toInt = 1024 ∧
      (trail code .none 4 0 (s.enter code)).length ≤ 3 := by
  intro code s
  obtain ⟨u, hu, hsteps, hasked⟩ : ∃ u, Arrives code .none s 1 u ∧ u.steps = 1022 ∧
      u.interrupt = some .canceled :=
    ⟨_, .next (i := ⟨1, 0⟩) .enter (ready_eq_ok_iff.mpr (by decide)) rfl, by decide, rfl⟩
  obtain ⟨w, hw, hend, hstops⟩ : ∃ w, Arrives code .none s 3 w ∧ w.steps = 1024 ∧
      Concludes code w .interrupted (.failure (w.aborted .canceled)) w :=
    ⟨_, .next (i := ⟨0, 0⟩)
      (.next (i := ⟨0, 0⟩) (.next (i := ⟨1, 0⟩) .enter (ready_eq_ok_iff.mpr (by decide)) rfl)
      (ready_eq_ok_iff.mpr (by decide)) rfl) (ready_eq_ok_iff.mpr (by decide)) rfl, by decide,
      .interrupted (by decide) (by decide) (by decide)⟩
  have hpoll : untilPoll u.steps = 2 := by
    rw [hsteps]
    decide
  have hfuel : 1 + untilPoll u.steps < 4 := by
    rw [hpoll]
    decide
  obtain ⟨ending, t, hrun, hlength, m, v, reason, -, hv, hconcludes, hrequest⟩ :=
    run_concludes_of_interrupt Hasty.keep (fun _ _ _ => trivial) hu
      (fun m v hle hv => hu.interrupt_of_le Hasty.keep (fun _ _ _ => trivial)
        (fun a arg v _ => Hasty.interrupt_exec a arg v) hasked hle hv) hfuel
  rw [hpoll] at hlength
  -- the turn that ends the run is the third
  have hle := hw.le_of_concludes hstops hv
  have hge := hv.le_of_concludes hconcludes hw
  obtain rfl : m = 3 := Nat.le_antisymm hle hge
  obtain rfl := hv.unique hw
  obtain ⟨-, rfl⟩ := hw.eq_of_run hstops hrun
  obtain ⟨⟨e, rfl, he⟩, -, -⟩ := hrequest (hconcludes.reason_eq hstops)
  exact ⟨e, v, hrun, he, congrArg Int64.toInt hend, hlength⟩

end StackMachine
