import StackMachine.Proofs.Protocol
import StackMachine.Standard

/-!
# Stopping a worker more than once

Whoever stops a worker tests whether that was done already, and closes it if not. Between the two,
others may do the same. However the calls interleave, the worker is closed at most once: a call that
finds it closed where it had found it open breaks. So calls to stop may follow one another
(`stops_broke_of_run`), but of two that find the worker open one breaks
(`not_forall_stops_ne_broke`).

The stage of a call is read off its own events, which are few (`Run.story`). What the events of
others do to it is no more than to close the worker meanwhile (`Run.closed_since`).
-/

namespace StackMachine

namespace Protocol

variable {ι σ α β : Type}

/-! ## What the events tell of the calls to stop -/

/-- The call to stop that takes the step. -/
def Event.stopper? : Event ι σ → Option σ
  | .stopMade j | .stopSaw j | .stopPassed j | .closed j | .stopBroke j => some j
  | _ => none

/-- The calls to stop that were made. -/
def stopsMade (events : List (Event ι σ)) : List σ :=
  events.filterMap fun
    | .stopMade j => some j
    | _ => none

/-- The calls to stop that have returned or broken. -/
def stopsEnded (events : List (Event ι σ)) : List σ :=
  events.filterMap fun
    | .stopSaw j | .closed j | .stopBroke j => some j
    | _ => none

/-- The calls that closed the worker. -/
def closers (events : List (Event ι σ)) : List σ :=
  events.filterMap fun
    | .closed j => some j
    | _ => none

theorem mem_stopsMade {events : List (Event ι σ)} {j : σ} :
    j ∈ stopsMade events ↔ .stopMade j ∈ events := by
  simp only [stopsMade, List.mem_filterMap]
  grind

theorem mem_stopsEnded {events : List (Event ι σ)} {j : σ} :
    j ∈ stopsEnded events ↔ .stopSaw j ∈ events ∨ .closed j ∈ events ∨ .stopBroke j ∈ events := by
  simp only [stopsEnded, List.mem_filterMap]
  grind

theorem mem_closers {events : List (Event ι σ)} {j : σ} :
    j ∈ closers events ↔ .closed j ∈ events := by
  simp only [closers, List.mem_filterMap]
  grind

section Runs

variable [DecidableEq ι] [DecidableEq σ] {jobs : ι → Job α β} {r : Registry α}
  {events : List (Event ι σ)} {c d : Config ι σ α β} {e : Event ι σ} {j : σ}

/-- The events of one call to stop. -/
def ownEvents (j : σ) (events : List (Event ι σ)) : List (Event ι σ) :=
  events.filter (·.stopper? = some j)

/-- What has happened to a call to stop by the time it is at a stage. -/
def Stop.Story (j : σ) : Stop → List (Event ι σ) → Prop
  | .unmade, story => story = []
  | .asking, story => story = [.stopMade j]
  | .closing, story => story = [.stopMade j, .stopPassed j]
  | .returned, story =>
    story = [.stopMade j, .stopSaw j] ∨ story = [.stopMade j, .stopPassed j, .closed j]
  | .broke, story => story = [.stopMade j, .stopPassed j, .stopBroke j]

omit [DecidableEq ι] in
theorem mem_ownEvents (h : e.stopper? = some j) : e ∈ ownEvents j events ↔ e ∈ events := by
  simp [ownEvents, h]

omit [DecidableEq ι] in
theorem ownEvents_append_of_ne (h : e.stopper? ≠ some j) :
    ownEvents j (events ++ [e]) = ownEvents j events := by
  simp [ownEvents, h]

omit [DecidableEq ι] in
theorem ownEvents_append_self (h : e.stopper? = some j) :
    ownEvents j (events ++ [e]) = ownEvents j events ++ [e] := by
  simp [ownEvents, h]

/-- The calls to stop that are under way: they were made and have not come to an end. -/
def stopsUnderWay (events : List (Event ι σ)) : List σ :=
  (stopsMade events).filter (· ∉ stopsEnded events)

/-- At no time are two calls to stop under way. -/
def StopsInTurn (events : List (Event ι σ)) : Prop :=
  ∀ before ∈ events.inits, ∀ j ∈ stopsUnderWay before, ∀ j' ∈ stopsUnderWay before, j = j'

instance (events : List (Event ι σ)) : Decidable (StopsInTurn events) :=
  inferInstanceAs (Decidable (∀ before ∈ events.inits, _))

/-! ## What a step does to one call to stop -/

/-- A step of others leaves a call to stop alone; its own steps take it one stage further. -/
theorem Step.stop_stage (h : Step jobs c e d) (j : σ) :
    e.stopper? ≠ some j ∧ d.stops j = c.stops j ∨
    e = .stopMade j ∧ c.stops j = .unmade ∧ d.stops j = .asking ∨
    e = .stopSaw j ∧ c.stops j = .asking ∧ d.stops j = .returned ∨
    e = .stopPassed j ∧ c.stops j = .asking ∧ c.quit = false ∧ d.stops j = .closing ∨
    e = .closed j ∧ c.stops j = .closing ∧ d.stops j = .returned ∨
    e = .stopBroke j ∧ c.stops j = .closing ∧ c.quit = true ∧ d.stops j = .broke := by
  by_cases hj : e.stopper? = some j
  · refine .inr ?_
    cases h with
    | stopMade hstop =>
      obtain rfl := Option.some.inj hj
      exact .inl ⟨rfl, hstop, c.stops_setStop_self _ _⟩
    | stopSaw hstop =>
      obtain rfl := Option.some.inj hj
      exact .inr (.inl ⟨rfl, hstop, c.stops_setStop_self _ _⟩)
    | stopPassed hstop hquit =>
      obtain rfl := Option.some.inj hj
      exact .inr (.inr (.inl ⟨rfl, hstop, hquit, c.stops_setStop_self _ _⟩))
    | closed hstop =>
      obtain rfl := Option.some.inj hj
      exact .inr (.inr (.inr (.inl ⟨rfl, hstop, c.stops_setStop_self _ _⟩)))
    | stopBroke hstop hquit =>
      obtain rfl := Option.some.inj hj
      exact .inr (.inr (.inr (.inr ⟨rfl, hstop, hquit, c.stops_setStop_self _ _⟩)))
    | _ => cases hj
  · refine .inl ⟨hj, ?_⟩
    cases h with
    | stopMade | stopSaw | stopPassed | closed | stopBroke =>
      exact c.stops_setStop_of_ne (fun heq => hj (congrArg some heq.symm)) _
    | _ => rfl

/-- A call stands before its closing from the step on in which it finds the worker open. -/
theorem Step.closing_cases (h : Step jobs c e d) (hj : d.stops j = .closing) :
    e.stopper? ≠ some j ∧ c.stops j = .closing ∨ e = .stopPassed j ∧ c.quit = false := by
  rcases h.stop_stage j with
    ⟨hother, hkept⟩ | ⟨-, -, hnow⟩ | ⟨-, -, hnow⟩ | ⟨hpassed, -, hopen, -⟩ | ⟨-, -, hnow⟩ |
    ⟨-, -, -, hnow⟩
  · exact .inl ⟨hother, hkept ▸ hj⟩
  · simp [hnow] at hj
  · simp [hnow] at hj
  · exact .inr ⟨hpassed, hopen⟩
  · simp [hnow] at hj
  · simp [hnow] at hj

/-- A call breaks in the step in which it finds the worker closed that it found open before. -/
theorem Step.broke_cases (h : Step jobs c e d) (hj : d.stops j = .broke) :
    c.stops j = .broke ∨ e = .stopBroke j ∧ c.stops j = .closing ∧ c.quit = true := by
  rcases h.stop_stage j with
    ⟨-, hkept⟩ | ⟨-, -, hnow⟩ | ⟨-, -, hnow⟩ | ⟨-, -, -, hnow⟩ | ⟨-, -, hnow⟩ |
    ⟨hbroke, hclosing, hquit, -⟩
  · exact .inl (hkept ▸ hj)
  · simp [hnow] at hj
  · simp [hnow] at hj
  · simp [hnow] at hj
  · simp [hnow] at hj
  · exact .inr ⟨hbroke, hclosing, hquit⟩

/-- A step leaves the worker open or closed as it is, or closes it. -/
theorem Step.quit_cases (h : Step jobs c e d) :
    closers [e] = [] ∧ d.quit = c.quit ∨ ∃ j, e = .closed j ∧ c.quit = false ∧ d.quit = true := by
  cases h with
  | @closed j hstop hquit => exact .inr ⟨j, rfl, hquit, rfl⟩
  | _ => exact .inl ⟨rfl, rfl⟩

/-! ## What happens to a call to stop -/

/-- The stage of a call tells its story. -/
theorem Run.story (h : Run jobs (.start r) events c) (j : σ) :
    (c.stops j).Story j (ownEvents j events) := by
  induction h with
  | start => rfl
  | step _ hstep ih =>
    rcases hstep.stop_stage j with ⟨hother, hkept⟩ | ⟨rfl, hbefore, hnow⟩ | ⟨rfl, hbefore, hnow⟩ |
      ⟨rfl, hbefore, -, hnow⟩ | ⟨rfl, hbefore, hnow⟩ | ⟨rfl, hbefore, -, hnow⟩
    · rwa [ownEvents_append_of_ne hother, hkept]
    all_goals
      rw [hbefore] at ih
      rw [ownEvents_append_self rfl, hnow, ih]
      simp [Stop.Story]

/-- A call to stop is under way while it stands before its test or before its closing. -/
theorem Run.mem_stopsUnderWay (h : Run jobs (.start r) events c) :
    j ∈ stopsUnderWay events ↔ c.stops j = .asking ∨ c.stops j = .closing := by
  have hstory := h.story j
  simp only [stopsUnderWay, List.mem_filter, decide_eq_true_iff, mem_stopsMade, mem_stopsEnded]
  rw [← mem_ownEvents (j := j) rfl, ← mem_ownEvents (j := j) (e := .stopSaw j) rfl,
    ← mem_ownEvents (j := j) (e := .closed j) rfl, ← mem_ownEvents (j := j) (e := .stopBroke j) rfl]
  cases hstage : c.stops j with
  | returned =>
    rw [hstage] at hstory
    rcases hstory with hstory | hstory <;> simp [hstory]
  | _ =>
    rw [hstage] at hstory
    simp [show ownEvents j events = _ from hstory]

/-- A call that has passed its test stands before its closing, has closed the worker or
has broken. -/
theorem Run.stage_of_passed (h : Run jobs (.start r) events c) (hj : .stopPassed j ∈ events) :
    c.stops j = .closing ∨ .closed j ∈ events ∨ c.stops j = .broke := by
  have hstory := h.story j
  rw [← mem_ownEvents (j := j) rfl] at hj
  rw [← mem_ownEvents (j := j) (e := .closed j) rfl]
  cases hstage : c.stops j with
  | closing => exact .inl rfl
  | broke => exact .inr (.inr rfl)
  | returned =>
    rw [hstage] at hstory
    rcases hstory with hstory | hstory
    · simp [hstory] at hj
    · simp [hstory]
  | unmade | asking =>
    rw [hstage] at hstory
    simp [show ownEvents j events = _ from hstory] at hj

/-! ## What happens meanwhile -/

/-- The worker is open and no call has closed it, or one call has. -/
theorem Run.closers_cases (h : Run jobs (.start r) events c) :
    c.quit = false ∧ closers events = [] ∨ c.quit = true ∧ ∃ j, closers events = [j] := by
  induction h with
  | start => exact .inl ⟨rfl, rfl⟩
  | step _ hstep ih =>
    rw [closers, List.filterMap_append]
    rcases hstep.quit_cases with ⟨hnone, hkept⟩ | ⟨j, rfl, hopen, hclosed⟩
    · rwa [← closers, ← closers, hnone, List.append_nil, hkept]
    · rcases ih with ⟨-, hnone⟩ | ⟨hquit, -⟩
      · exact .inr ⟨hclosed, j, by rw [← closers, hnone]; rfl⟩
      · rw [hopen] at hquit
        cases hquit

/-- A call that stands before its closing has found the worker open; if it is closed by now, another
call has closed it since. -/
theorem Run.closed_since (h : Run jobs (.start r) events c) (hj : c.stops j = .closing) :
    ∃ before between, events = before ++ .stopPassed j :: between ∧
      (c.quit = true → ∃ j', j' ≠ j ∧ .closed j' ∈ between) := by
  induction h with
  | start => cases hj
  | @step events c e d _ hstep ih =>
    rcases hstep.closing_cases hj with ⟨hother, hkept⟩ | ⟨rfl, hopen⟩
    · obtain ⟨before, between, rfl, hclosed⟩ := ih hkept
      refine ⟨before, between ++ [e], by simp, fun hquit => ?_⟩
      rcases hstep.quit_cases with ⟨-, hsame⟩ | ⟨j', rfl, -⟩
      · obtain ⟨j', hne, hj'⟩ := hclosed (hsame ▸ hquit)
        exact ⟨j', hne, List.mem_append_left _ hj'⟩
      · exact ⟨j', fun heq => hother (congrArg some heq), by simp⟩
    · refine ⟨events, [], rfl, fun hquit => ?_⟩
      rcases hstep.quit_cases with ⟨-, hsame⟩ | ⟨j', hclosed, -⟩
      · rw [hsame, hopen] at hquit
        cases hquit
      · cases hclosed

/-- Where a call has broken, another one has closed the worker between its test and its closing. -/
theorem Run.overlap_of_broke (h : Run jobs (.start r) events c) (hj : c.stops j = .broke) :
    ∃ before between after j', events =
      before ++ .stopPassed j :: between ++ .stopBroke j :: after ∧
      j' ≠ j ∧ .closed j' ∈ between := by
  induction h with
  | start => cases hj
  | @step events c e d hrun hstep ih =>
    rcases hstep.broke_cases hj with hkept | ⟨rfl, hclosing, hquit⟩
    · obtain ⟨before, between, after, j', rfl, hj'⟩ := ih hkept
      exact ⟨before, between, after ++ [e], j', by simp, hj'⟩
    · obtain ⟨before, between, rfl, hclosed⟩ := hrun.closed_since hclosing
      obtain ⟨j', hj'⟩ := hclosed hquit
      exact ⟨before, between, [], j', rfl, hj'⟩

/-- While the calls come in turn, the one before its closing finds the worker open, and
none breaks. -/
theorem Run.in_turn (h : Run jobs (.start r) events c) (hturn : StopsInTurn events) :
    (∀ j, c.stops j = .closing → c.quit = false) ∧ ∀ j, c.stops j ≠ .broke := by
  induction h with
  | start => exact ⟨by simp [Config.start], by simp [Config.start]⟩
  | @step events c e d hrun hstep ih =>
    have hbefore : StopsInTurn events := by
      intro before hinit
      rw [List.mem_inits] at hinit
      exact hturn before ((List.mem_inits _ _).mpr (hinit.trans (List.prefix_append _ _)))
    obtain ⟨hopen, hwhole⟩ := ih hbefore
    refine ⟨fun j hj => ?_, fun j hj => ?_⟩
    · rcases hstep.quit_cases with ⟨-, hsame⟩ | ⟨j', rfl, -, -⟩
      · rw [hsame]
        rcases hstep.closing_cases hj with ⟨-, hkept⟩ | ⟨-, hquit⟩
        · exact hopen j hkept
        · exact hquit
      · -- the call that closes the worker is the only one under way
        have hclosing : c.stops j' = .closing := by
          cases hstep
          assumption
        rcases hstep.closing_cases hj with ⟨hother, hkept⟩ | ⟨hpassed, -⟩
        · have hsame : j' = j := hbefore events ((List.mem_inits _ _).mpr (List.prefix_refl _))
            j' (hrun.mem_stopsUnderWay.mpr (.inr hclosing)) j
              (hrun.mem_stopsUnderWay.mpr (.inr hkept))
          exact absurd (congrArg some hsame) hother
        · cases hpassed
    · rcases hstep.broke_cases hj with hkept | ⟨-, hclosing, hquit⟩
      · exact hwhole j hkept
      · rw [hopen j hclosing] at hquit
        cases hquit

/-! ## Calls that overlap -/

/-- However the calls for jobs, the loop and the calls to stop the worker interleave:

* the worker is closed at most once;
* a call to stop that breaks found the worker open at its test, and another call has closed it
  before it came to closing it;
* of two calls that both found the worker open, one breaks, unless one of them still stands before
  its closing;
* where no two calls to stop are under way at a time, none breaks. -/
theorem stops_broke_of_run (h : Run jobs (.start r) events c) :
    (closers events).length ≤ 1 ∧
    (∀ j, c.stops j = .broke → ∃ before between after j',
      events = before ++ .stopPassed j :: between ++ .stopBroke j :: after ∧ j' ≠ j ∧
      .closed j' ∈ between) ∧
    (∀ j j', j ≠ j' → .stopPassed j ∈ events → .stopPassed j' ∈ events →
      c.stops j ≠ .closing → c.stops j' ≠ .closing → c.stops j = .broke ∨ c.stops j' = .broke) ∧
    (StopsInTurn events → ∀ j, c.stops j ≠ .broke) := by
  have honce : (closers events).length ≤ 1 := by
    rcases h.closers_cases with ⟨-, hnone⟩ | ⟨-, j, hone⟩
    · simp [hnone]
    · simp [hone]
  refine ⟨honce, fun j hj => h.overlap_of_broke hj, ?_, fun hturn => (h.in_turn hturn).2⟩
  intro j j' hne hj hj' hpast hpast'
  rcases (h.stage_of_passed hj).resolve_left hpast with hclosed | hbroke
  · rcases (h.stage_of_passed hj').resolve_left hpast' with hclosed' | hbroke
    · rw [← mem_closers] at hclosed hclosed'
      rcases h.closers_cases with ⟨-, hnone⟩ | ⟨-, closer, hone⟩
      · rw [hnone] at hclosed
        cases hclosed
      · -- both would be the one call that has closed the worker
        rw [hone, List.mem_singleton] at hclosed hclosed'
        exact absurd (hclosed.trans hclosed'.symm) hne
    · exact .inr hbroke
  · exact .inl hbroke

end Runs

/-- Jobs that count the instructions. -/
def counting (_ : Unit) : Job Standard Nat := fun r => some (.ok r.size, r)

/-- Two calls to stop come one after the other, and a call for a job between them: the second one
sees that nothing is left to do. -/
theorem exists_stops_in_turn :
    ∃ (events : List (Event Unit Bool)) (c : Config Unit Bool Standard Nat),
      Run counting (.start .standard) events c ∧ StopsInTurn events ∧
      c.stops false = .returned ∧ c.stops true = .returned ∧
      c.calls () = .returned (.error .stopped) := by
  have hstart : Run (σ := Bool) counting (.start .standard) [] (.start .standard) := .start
  exact ⟨_, _, hstart.step (.stopMade (j := false) rfl)
    |>.step (.stopPassed (j := false) rfl rfl)
    |>.step (.made (k := ()) rfl)
    |>.step (.closed (j := false) rfl rfl)
    |>.step (.refused (k := ()) rfl rfl)
    |>.step (.stopMade (j := true) rfl)
    |>.step (.stopSaw (j := true) rfl rfl), by decide, rfl, rfl, rfl⟩

/-- Two calls to stop are made at the same time, and both find the worker open. -/
theorem exists_overlapping_stops :
    ∃ (events : List (Event Unit Bool)) (c : Config Unit Bool Standard Nat),
      Run counting (.start .standard) events c ∧ c.stops false = .returned ∧
      c.stops true = .broke := by
  have hstart : Run (σ := Bool) counting (.start .standard) [] (.start .standard) := .start
  exact ⟨_, _, hstart.step (.stopMade (j := false) rfl)
    |>.step (.stopMade (j := true) rfl)
    |>.step (.stopPassed (j := false) rfl rfl)
    |>.step (.stopPassed (j := true) rfl rfl)
    |>.step (.closed (j := false) rfl rfl)
    |>.step (.stopBroke (j := true) rfl rfl), rfl, rfl⟩

/-- In the first of these runs the worker is closed once and no call breaks; in the second the call
that breaks has been overtaken. -/
theorem stops_broke_of_run_counting :
    (∃ (events : List (Event Unit Bool)) (c : Config Unit Bool Standard Nat),
      Run counting (.start .standard) events c ∧ c.calls () = .returned (.error .stopped) ∧
      (closers events).length ≤ 1 ∧ ∀ j, c.stops j ≠ .broke) ∧
    ∃ (events : List (Event Unit Bool)) (c : Config Unit Bool Standard Nat),
      Run counting (.start .standard) events c ∧ c.stops true = .broke ∧
      .closed false ∈ events := by
  obtain ⟨events, c, hrun, hturn, -, -, hcall⟩ := exists_stops_in_turn
  obtain ⟨events', c', hrun', -, hbroke⟩ := exists_overlapping_stops
  obtain ⟨honce, -, -, hwhole⟩ := stops_broke_of_run hrun
  obtain ⟨-, hovertaken, -, -⟩ := stops_broke_of_run hrun'
  refine ⟨⟨events, c, hrun, hcall, honce, hwhole hturn⟩, events', c', hrun', hbroke, ?_⟩
  obtain ⟨before, between, after, j, rfl, hj, hclosed⟩ := hovertaken true hbroke
  obtain rfl : j = false := by simpa using hj
  simp [hclosed]

/-- Calls to stop are not harmless: some run breaks one of them. -/
theorem not_forall_stops_ne_broke :
    ¬ ∀ (events : List (Event Unit Bool)) (c : Config Unit Bool Standard Nat),
      Run counting (.start .standard) events c → ∀ j, c.stops j ≠ .broke := by
  intro hharmless
  obtain ⟨events, c, hrun, -, hbroke⟩ := exists_overlapping_stops
  exact hharmless events c hrun true hbroke

end Protocol

end StackMachine
