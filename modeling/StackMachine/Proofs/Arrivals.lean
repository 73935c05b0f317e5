import StackMachine.Proofs.Dispatch
import StackMachine.Proofs.Entry

/-!
# Arriving at the head of the loop

A run comes back to the head of the loop before every instruction. `State.Arrives` says in which
state it does so for its `n`-th turn, over any instructions; `n` instructions have been dispatched
by then. A run outlasts its fuel exactly if it arrives once more (`run_eq_none_iff`), so what keeps
a run from arriving makes it end.

Where a run ends, it does so in the turn of an arrival and for one of six reasons (`Concludes`).
`exists_concludes` and `Arrives.run_eq` say that the runs that end are just those that arrive
somewhere and conclude there.

The last part is about actions that leave some part of the state alone (`Action.Keep`). If they
leave the step count alone, it tells at every arrival how many instructions were dispatched, and a
step limit makes the run end.
-/

namespace StackMachine

open Text

namespace State

/-- Why a run ends: three reasons are found at the head of the loop, and three are verdicts of an
instruction. -/
inductive Reason where
  /-- The program counter has left the code. -/
  | strayed
  /-- The step limit is reached. -/
  | exhausted
  /-- A request to stop is noticed. -/
  | interrupted
  /-- The instruction halts the run. -/
  | halted
  /-- The instruction fails, or is not registered. -/
  | failed
  /-- The instruction breaks down. -/
  | crashed
  deriving DecidableEq, Repr

/-- How many instructions are dispatched in a turn that ends the run for this reason. -/
def Reason.dispatches : Reason → Nat
  | strayed | exhausted | interrupted => 0
  | halted | failed | crashed => 1

variable {α : Type} [Action α] {code : Code} {signals : Signals} {s u v t : State α}
  {n m fuel : Nat} {ending : Ending} {reason : Reason}

/-! ## Arrivals -/

/-- The run on `s` comes to the head of the loop for its `n`-th turn in the state `u`, which has
heard of all requests to stop that have reached it by then. -/
inductive Arrives (code : Code) (signals : Signals) (s : State α) : Nat → State α → Prop where
  | enter : Arrives code signals s 0 ((s.enter code).hear (signals 0))
  | next {n u i v} (h : Arrives code signals s n u) (hready : u.ready code = .ok i)
      (hdispatch : u.dispatch i = (.more, v)) :
      Arrives code signals s (n + 1) (v.hear (signals (n + 1)))

theorem Arrives.hear_eq (h : Arrives code signals s n u) : u.hear (signals n) = u := by
  cases h with
  | enter => exact hear_hear _ _
  | next => exact hear_hear _ _

/-- A run that arrives for a turn has arrived for every turn before it. -/
theorem Arrives.earlier (h : Arrives code signals s n u) (hle : m ≤ n) :
    ∃ v, Arrives code signals s m v := by
  induction h with
  | enter =>
    obtain rfl := Nat.le_zero.mp hle
    exact ⟨_, .enter⟩
  | @next n u i v h hready hdispatch ih =>
    rcases Nat.le_succ_iff.mp hle with hle | rfl
    · exact ih hle
    · exact ⟨_, h.next hready hdispatch⟩

theorem Arrives.unique (h : Arrives code signals s n u) (h' : Arrives code signals s n v) :
    u = v := by
  induction h generalizing v with
  | enter =>
    cases h'
    rfl
  | next _ hready hdispatch ih =>
    cases h' with
    | next h' hready' hdispatch' =>
      obtain rfl := ih h'
      obtain rfl := Except.ok.inj (hready.symm.trans hready')
      rw [(Prod.mk.inj (hdispatch.symm.trans hdispatch')).2]

/-- The turn of an arrival finds at the head of the loop what the arrival does. -/
theorem Arrives.turn_eq (h : Arrives code signals s n u) {i : Instruction}
    (hready : u.ready code = .ok i) :
    u.turn code (signals n) = follow (u.dispatch i) := by
  rw [← h.hear_eq] at hready
  rw [turn_of_ok hready, h.hear_eq]

/-- From an arrival on, a run is the loop on the state in which it arrives. -/
theorem Arrives.run_add (h : Arrives code signals s n u) (fuel : Nat) :
    s.run code signals (n + fuel) = loop code signals fuel n u := by
  induction h generalizing fuel with
  | enter => rw [Nat.zero_add, loop_hear, run]
  | @next n u i v h hready hdispatch ih =>
    rw [Nat.add_assoc, Nat.add_comm 1 fuel, ih, loop_succ, h.turn_eq hready, hdispatch, loop_hear]
    rfl

/-! ## Endings -/

/-- The run ends in the turn that finds the state `u` at the head of the loop: why, with which
ending, and what state it leaves. -/
inductive Concludes (code : Code) (u : State α) : Reason → Ending → State α → Prop where
  | strayed (hfetch : code.fetch? u.pc = none) :
      Concludes code u .strayed (.failure (u.outside code)) u
  | exhausted (hfetch : code.fetch? u.pc ≠ none) (hlimit : u.atLimit = true) :
      Concludes code u .exhausted (.failure u.exhausted) u
  | interrupted {r} (hfetch : code.fetch? u.pc ≠ none) (hlimit : u.atLimit = false)
      (hnoticed : u.noticed = some r) :
      Concludes code u .interrupted (.failure (u.aborted r)) u
  | halted {i t} (hready : u.ready code = .ok i) (hdispatch : u.dispatch i = (.halt, t)) :
      Concludes code u .halted t.haltEnding t
  | failed {i e t} (hready : u.ready code = .ok i) (hdispatch : u.dispatch i = (.failed e, t)) :
      Concludes code u .failed (.failure e) t
  | crashed {i message t} (hready : u.ready code = .ok i)
      (hdispatch : u.dispatch i = (.crashed message, t)) :
      Concludes code u .crashed (.crash message) t

/-- From the head of the loop a run goes on or ends. -/
theorem goes_on_or_concludes (code : Code) (u : State α) :
    (∃ i v, u.ready code = .ok i ∧ u.dispatch i = (.more, v)) ∨
    ∃ reason ending t, Concludes code u reason ending t := by
  cases hready : u.ready code with
  | error e =>
    right
    rcases ready_error_cases hready with
      ⟨hfetch, -⟩ | ⟨hfetch, hlimit, -⟩ | ⟨hfetch, hlimit, r, hnoticed, -⟩
    · exact ⟨_, _, _, .strayed hfetch⟩
    · exact ⟨_, _, _, .exhausted hfetch hlimit⟩
    · exact ⟨_, _, _, .interrupted hfetch hlimit hnoticed⟩
  | ok i =>
    obtain ⟨verdict, v, hdispatch⟩ : ∃ verdict v, u.dispatch i = (verdict, v) := ⟨_, _, rfl⟩
    cases verdict with
    | more => exact .inl ⟨i, v, rfl, hdispatch⟩
    | halt => exact .inr ⟨_, _, _, .halted hready hdispatch⟩
    | failed e => exact .inr ⟨_, _, _, .failed hready hdispatch⟩
    | crashed message => exact .inr ⟨_, _, _, .crashed hready hdispatch⟩

/-- A run is ended by what the head of the loop finds, or by the verdict of the instruction that it
dispatches. -/
theorem Concludes.cases (h : Concludes code u reason ending t) :
    (∃ e, u.ready code = .error e ∧ reason.dispatches = 0 ∧ ending = .failure e ∧ t = u) ∨
    (∃ i verdict, u.ready code = .ok i ∧ reason.dispatches = 1 ∧ u.dispatch i = (verdict, t) ∧
      follow (verdict, t) = .inr (ending, t)) := by
  cases h with
  | strayed hfetch =>
    refine .inl ⟨_, ?_, rfl, rfl, rfl⟩
    rw [ready, hfetch]
  | exhausted hfetch hlimit =>
    refine .inl ⟨_, ?_, rfl, rfl, rfl⟩
    obtain ⟨i, hi⟩ := Option.ne_none_iff_exists'.mp hfetch
    rw [ready, hi, hlimit]
    rfl
  | interrupted hfetch hlimit hnoticed =>
    refine .inl ⟨_, ?_, rfl, rfl, rfl⟩
    obtain ⟨i, hi⟩ := Option.ne_none_iff_exists'.mp hfetch
    rw [ready, hi, hlimit, hnoticed]
    rfl
  | halted hready hdispatch | failed hready hdispatch | crashed hready hdispatch =>
    exact .inr ⟨_, _, hready, rfl, hdispatch, rfl⟩

/-- A turn ends the run for one reason only. -/
theorem Concludes.reason_eq (h : Concludes code u reason ending t) {reason' : Reason}
    {ending' : Ending} {t' : State α} (h' : Concludes code u reason' ending' t') :
    reason = reason' := by
  cases h <;> cases h' <;> simp_all [ready_eq_ok_iff]

theorem Concludes.turn_eq (h : Concludes code u reason ending t) {r : Option Interrupt}
    (hheard : u.hear r = u) :
    u.turn code r = .inr (ending, t) := by
  rcases h.cases with ⟨e, hready, -, rfl, rfl⟩ | ⟨i, verdict, hready, -, hdispatch, hfollow⟩
  · rw [← hheard] at hready
    rw [turn_of_error hready, hheard]
  · rw [← hheard] at hready
    rw [turn_of_ok hready, hheard, hdispatch, hfollow]

/-- A run that concludes somewhere has that ending for all fuel beyond. -/
theorem Arrives.run_eq (h : Arrives code signals s n u)
    (hconcludes : Concludes code u reason ending t) (hfuel : n < fuel) :
    s.run code signals fuel = some (ending, t) := by
  obtain ⟨k, rfl⟩ : ∃ k, fuel = n + (k + 1) := ⟨fuel - n - 1, by omega⟩
  rw [h.run_add, loop_succ, hconcludes.turn_eq h.hear_eq]
  rfl

/-- A run outlasts its fuel exactly if it arrives at the head of the loop once more. -/
theorem run_eq_none_iff : s.run code signals fuel = none ↔ ∃ u, Arrives code signals s fuel u := by
  constructor
  · induction fuel with
    | zero => exact fun _ => ⟨_, .enter⟩
    | succ fuel ih =>
      intro h
      have hless : s.run code signals fuel = none := by
        rw [Option.eq_none_iff_forall_ne_some]
        intro r hr
        rw [run, loop_mono hr (Nat.le_succ fuel)] at h
        cases h
      obtain ⟨u, hu⟩ := ih hless
      rcases goes_on_or_concludes code u with
        ⟨i, v, hready, hdispatch⟩ | ⟨reason, ending, t, hconcludes⟩
      · exact ⟨_, hu.next hready hdispatch⟩
      · rw [hu.run_eq hconcludes (Nat.lt_succ_self fuel)] at h
        cases h
  · rintro ⟨u, hu⟩
    exact hu.run_add 0

/-- A run that ends does so in the turn of an arrival. -/
theorem exists_concludes (h : s.run code signals fuel = some (ending, t)) :
    ∃ n u reason, n < fuel ∧ Arrives code signals s n u ∧ Concludes code u reason ending t := by
  induction fuel with
  | zero => cases h
  | succ fuel ih =>
    cases hless : s.run code signals fuel with
    | some r =>
      obtain rfl := Option.some.inj ((loop_mono hless (Nat.le_succ fuel)).symm.trans h)
      obtain ⟨n, u, reason, hn, hu⟩ := ih hless
      exact ⟨n, u, reason, Nat.lt_succ_of_lt hn, hu⟩
    | none =>
      obtain ⟨u, hu⟩ := run_eq_none_iff.mp hless
      rcases goes_on_or_concludes code u with
        ⟨i, v, hready, hdispatch⟩ | ⟨reason, ending', t', hconcludes⟩
      · rw [run_eq_none_iff.mpr ⟨_, hu.next hready hdispatch⟩] at h
        cases h
      · rw [hu.run_eq hconcludes (Nat.lt_succ_self fuel)] at h
        obtain ⟨rfl, rfl⟩ := Prod.mk.inj (Option.some.inj h)
        exact ⟨fuel, u, reason, Nat.lt_succ_self fuel, hu, hconcludes⟩

/-- Where a run concludes it arrives for the last time. -/
theorem Arrives.le_of_concludes (h : Arrives code signals s n u)
    (hconcludes : Concludes code u reason ending t) (h' : Arrives code signals s m v) : m ≤ n := by
  refine Nat.le_of_not_lt fun hlt => ?_
  have hnone := run_eq_none_iff.mpr ⟨v, h'⟩
  rw [h.run_eq hconcludes hlt] at hnone
  cases hnone

/-- A run ends with whatever it concludes with at an arrival. -/
theorem Arrives.eq_of_run (h : Arrives code signals s n u)
    (hconcludes : Concludes code u reason ending t) {ending' : Ending} {t' : State α}
    (hrun : s.run code signals fuel = some (ending', t')) :
    ending = ending' ∧ t = t' := by
  obtain ⟨m, v, reason', hm, hv, hconcludes'⟩ := exists_concludes hrun
  rw [h.run_eq hconcludes (Nat.lt_of_le_of_lt (hv.le_of_concludes hconcludes' h) hm)] at hrun
  exact Prod.mk.inj (Option.some.inj hrun)

/-! ## What has been dispatched -/

/-- The state that dispatched instructions leave: the one left by the last of them, or the one in
which the run was entered. -/
def leftBy (code : Code) (s : State α) (trail : List (State α × Instruction)) : State α :=
  match trail.getLast? with
  | some (u, i) => (u.dispatch i).2
  | none => s.enter code

theorem leftBy_concat (code : Code) (s u : State α) (trail : List (State α × Instruction))
    (i : Instruction) :
    leftBy code s (trail ++ [(u, i)]) = (u.dispatch i).2 := by
  rw [leftBy, List.getLast?_concat]

theorem trail_hear (code : Code) (signals : Signals) (fuel n : Nat) (s : State α) :
    trail code signals fuel n (s.hear (signals n)) = trail code signals fuel n s := by
  cases fuel with
  | zero => rfl
  | succ fuel => rw [trail, trail, dispatched, dispatched, turn, turn, hear_hear]

/-- Before its `n`-th arrival a run has dispatched `n` instructions, and it arrives in the state
that they have left. -/
theorem Arrives.exists_trail (h : Arrives code signals s n u) :
    ∃ before : List (State α × Instruction), before.length = n ∧
      u = (leftBy code s before).hear (signals n) ∧
      ∀ fuel, trail code signals (n + fuel) 0 (s.enter code) =
        before ++ trail code signals fuel n u := by
  induction h with
  | enter =>
    refine ⟨[], rfl, rfl, fun fuel => ?_⟩
    rw [Nat.zero_add, List.nil_append, trail_hear]
  | @next n u i v h hready hdispatch ih =>
    obtain ⟨before, hlength, -, htrail⟩ := ih
    have hdispatched : u.dispatched code (signals n) = [(u, i)] := by
      rw [dispatched, h.hear_eq, hready]
    refine ⟨before ++ [(u, i)], ?_, ?_, fun fuel => ?_⟩
    · rw [List.length_append, hlength, List.length_singleton]
    · rw [leftBy_concat, hdispatch]
    · rw [Nat.add_assoc, Nat.add_comm 1 fuel, htrail, trail, hdispatched, h.turn_eq hready,
        hdispatch, List.append_assoc, trail_hear]
      rfl

/-- A run that concludes somewhere has dispatched one instruction for each earlier turn, and perhaps
one in the last. It leaves the state that they have left, apart from requests to stop. -/
theorem Arrives.trail_of_concludes (h : Arrives code signals s n u)
    (hconcludes : Concludes code u reason ending t) (hfuel : n < fuel) :
    (trail code signals fuel 0 (s.enter code)).length = n + reason.dispatches ∧
      ∃ request, t =
        { leftBy code s (trail code signals fuel 0 (s.enter code)) with interrupt := request } := by
  obtain ⟨k, rfl⟩ : ∃ k, fuel = n + (k + 1) := ⟨fuel - n - 1, by omega⟩
  obtain ⟨before, hlength, hleft, htrail⟩ := h.exists_trail
  have hlast : trail code signals (k + 1) n u = u.dispatched code (signals n) := by
    rw [trail, hconcludes.turn_eq h.hear_eq, Sum.elim_inr, List.append_nil]
  rw [htrail, hlast, dispatched, h.hear_eq, List.length_append, hlength]
  rcases hconcludes.cases with
    ⟨e, hready, hcount, -, rfl⟩ | ⟨i, verdict, hready, hcount, hdispatch, -⟩
  · rw [hready, hcount, List.append_nil]
    exact ⟨rfl, _, hleft⟩
  · rw [hready, hcount, leftBy_concat, hdispatch]
    exact ⟨rfl, t.interrupt, rfl⟩

end State

/-! ## Actions that leave something alone -/

section Keep

variable {α β γ : Type} {P : α → Prop}

/-- A registry holds only actions of one kind. -/
def Registry.Only (P : α → Prop) (r : Registry α) : Prop := ∀ id a, r.action? id = some a → P a

/-- Actions of one kind leave what `f` shows of a state alone, and register only actions of that
kind. -/
def Action.Keep [Action α] (P : α → Prop) (f : State α → β) : Prop :=
  ∀ a arg s, P a → s.registry.Only P →
    f (Action.exec a arg s).2 = f s ∧ (Action.exec a arg s).2.registry.Only P

theorem Action.Keep.map [Action α] {f : State α → β} (h : Action.Keep P f) (g : β → γ) :
    Action.Keep P fun s => g (f s) := by
  intro a arg s ha hs
  obtain ⟨hshown, honly⟩ := h a arg s ha hs
  exact ⟨congrArg g hshown, honly⟩

/-- What actions leave alone is changed by a dispatch only on the way to the action. -/
theorem Action.Keep.dispatch [Action α] {f : State α → β} (h : Action.Keep P f) {s : State α}
    (hs : s.registry.Only P) (i : Instruction) :
    f (s.dispatch i).2 = f (s.trace i).advance ∧ (s.dispatch i).2.registry.Only P := by
  have hregistry := s.registry_trace_advance i
  rcases s.dispatch_cases i with ⟨a, haction, hdispatch⟩ | ⟨-, hdispatch⟩
  · rw [hdispatch]
    exact h a i.arg _ (hs _ a haction) (hregistry ▸ hs)
  · rw [hdispatch]
    exact ⟨rfl, hregistry ▸ hs⟩

/-- A dispatch counts one step if actions leave the count alone. -/
theorem Action.Keep.steps_dispatch [Action α] (h : Action.Keep P fun s : State α => s.steps)
    {s : State α} (hs : s.registry.Only P) (i : Instruction) :
    (s.dispatch i).2.steps = s.steps + 1 := by
  rw [(h.dispatch hs i).1, State.trace_eq]
  rfl

end Keep

namespace State

variable {α : Type} [Action α] {P : α → Prop} {code : Code} {signals : Signals} {s u t : State α}
  {n fuel : Nat} {ending : Ending} {reason : Reason}

omit [Action α] in
theorem registry_enter (code : Code) (s : State α) : (s.enter code).registry = s.registry := by
  rw [enter_eq]

/-- No other actions are registered in the course of a run. -/
theorem Arrives.only {β : Type} {f : State α → β} (hkeep : Action.Keep P f) (hs : s.registry.Only P)
    (h : Arrives code signals s n u) : u.registry.Only P := by
  induction h with
  | enter => exact registry_enter code s ▸ hs
  | @next n u i v h hready hdispatch ih =>
    have honly := (hkeep.dispatch ih i).2
    rw [hdispatch] at honly
    exact honly

/-! ## The step count under a limit -/

/-- The step count and the step limit. -/
def meter (s : State α) : Int64 × Int64 := (s.steps, s.maxSteps)

/-- `u` is what dispatching `n` instructions under the step limit of `s` has led to. -/
structure Metered (P : α → Prop) (s : State α) (n : Nat) (u : State α) : Prop where
  only : u.registry.Only P
  maxSteps : u.maxSteps = s.maxSteps
  steps : u.steps.toInt = s.steps.toInt + n
  within : n ≤ (s.maxSteps.toInt - s.steps.toInt).toNat

namespace Metered

omit [Action α] in
theorem enter (code : Code) (hs : s.registry.Only P) : Metered P s 0 (s.enter code) := by
  rw [enter_eq]
  exact ⟨hs, rfl, (Int.add_zero _).symm, Nat.zero_le _⟩

omit [Action α] in
theorem hear (h : Metered P s n u) (r : Option Interrupt) : Metered P s n (u.hear r) :=
  ⟨h.only, h.maxSteps, h.steps, h.within⟩

omit [Action α] in
/-- Where an instruction is dispatched the count is below the limit. -/
theorem lt_of_ready (h : Metered P s n u) (hpos : 0 < s.maxSteps) {i : Instruction}
    (hready : u.ready code = .ok i) :
    s.steps.toInt + n < s.maxSteps.toInt := by
  obtain ⟨-, hlimit, -⟩ := ready_eq_ok_iff.mp hready
  rw [atLimit, h.maxSteps, decide_eq_true hpos, Bool.true_and, decide_eq_false_iff_not,
    Int64.not_le, Int64.lt_iff_toInt_lt, h.steps] at hlimit
  exact hlimit

/-- A dispatch counts. The count stays within the limit, so it does not wrap. -/
theorem dispatch (h : Metered P s n u) (hkeep : Action.Keep P (meter (α := α)))
    (hpos : 0 < s.maxSteps) {i : Instruction} (hready : u.ready code = .ok i) :
    Metered P s (n + 1) (u.dispatch i).2 := by
  have hlt := h.lt_of_ready hpos hready
  have hbound := s.maxSteps.toInt_lt
  have hnext : (u.steps + 1).toInt = u.steps.toInt + 1 := toInt_add_one (by rw [h.steps]; omega)
  obtain ⟨hmeter, honly⟩ := hkeep.dispatch h.only i
  refine ⟨honly, ?_, ?_, by omega⟩
  · have hmax : (u.dispatch i).2.maxSteps = (u.trace i).advance.maxSteps := congrArg Prod.snd hmeter
    rw [hmax, trace_eq, ← h.maxSteps]
    rfl
  · rw [(hkeep.map Prod.fst).steps_dispatch h.only i, hnext, h.steps]
    omega

end Metered

theorem Arrives.metered (hkeep : Action.Keep P (meter (α := α))) (hs : s.registry.Only P)
    (hpos : 0 < s.maxSteps) (h : Arrives code signals s n u) : Metered P s n u := by
  induction h with
  | enter => exact (Metered.enter code hs).hear _
  | @next n u i v h hready hdispatch ih =>
    have hnext := ih.dispatch hkeep hpos hready
    rw [hdispatch] at hnext
    exact hnext.hear _

theorem Metered.conclude (h : Metered P s n u) (hkeep : Action.Keep P (meter (α := α)))
    (hpos : 0 < s.maxSteps) (hconcludes : Concludes code u reason ending t) :
    Metered P s (n + reason.dispatches) t := by
  rcases hconcludes.cases with ⟨e, -, hcount, -, rfl⟩ | ⟨i, verdict, hready, hcount, hdispatch, -⟩
  · rw [hcount]
    exact h
  · have hnext := h.dispatch hkeep hpos hready
    rw [hdispatch] at hnext
    rw [hcount]
    exact hnext

/-- A run under a positive limit ends: no run takes more turns than the limit leaves steps,
and one. -/
theorem run_isSome_of_limit (hkeep : Action.Keep P (meter (α := α))) (code : Code)
    (signals : Signals) (hs : s.registry.Only P) (hpos : 0 < s.maxSteps)
    (hfuel : (s.maxSteps.toInt - s.steps.toInt).toNat < fuel) :
    ∃ ending t, s.run code signals fuel = some (ending, t) := by
  cases hrun : s.run code signals fuel with
  | some r => exact ⟨r.1, r.2, rfl⟩
  | none =>
    obtain ⟨u, hu⟩ := run_eq_none_iff.mp hrun
    have hwithin := (hu.metered hkeep hs hpos).within
    omega

end State

/-- A standard instruction leaves all of a state alone but the program counter, the stack and what
is printed and written. -/
theorem Standard.keep {β : Type} {f : State Standard → β}
    (hf : ∀ s d : State Standard, f (s.amend d) = f s) :
    Action.Keep (fun _ => True) f := by
  intro a arg s _ _
  refine ⟨?_, fun _ _ _ => trivial⟩
  show f (Standard.exec a arg s).2 = f s
  rw [Standard.exec_eq_amend]
  exact hf s _

theorem Standard.keep_meter : Action.Keep (fun _ => True) (State.meter (α := Standard)) :=
  keep fun _ _ => rfl

theorem State.only_true (s : State Standard) : s.registry.Only fun _ => True := fun _ _ _ => trivial

end StackMachine
