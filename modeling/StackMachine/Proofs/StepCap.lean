import StackMachine.Proofs.Isolation
import StackMachine.Proofs.Recording
import StackMachine.Proofs.StepCount

/-!
# The cap on the steps of a request

A service sets a limit on the steps of every run, and a request may ask for one. Either of them is
no limit if it is not positive, and the machine reads the limit that it is given in the same way, so
a number passes three readings on its way to a run. What comes of them is the smaller of the two
limits that are limits at all (`tightest?`): a request can lower the cap of the service and never
raise or lift it (`run_eq_execute_tightest`).
-/

namespace StackMachine

open Text

/-! ## The kind of a fault -/

theorem FaultKind.name_ne_stepLimit (k : FaultKind) : k.name ≠ utf8 "step_limit" := by
  unfold name
  split
  · next kind text hfind =>
    have htext : ∀ entry ∈ named, entry.2 ≠ utf8 "step_limit" := by decide
    exact htext _ (List.mem_of_find?_eq_some hfind)
  · intro heq
    have hhead := congrArg List.head? heq
    rw [List.append_assoc, List.head?_append_of_ne_nil _ (by decide)] at hhead
    revert hhead
    decide

/-- A fault of the kind that stands for the step limit tells of a failure without a fault of its
own. -/
theorem Wire.FaultInfo.of_kind_eq_stepLimit {e : Failure}
    (h : (FaultInfo.ofFailure e).kind = utf8 "step_limit") :
    e.fault? = none ∧ e.hasStepLimit = true := by
  rw [FaultInfo.ofFailure] at h
  cases hfault : e.fault? with
  | some x =>
    rw [hfault] at h
    exact absurd h (FaultKind.name_ne_stepLimit _)
  | none =>
    rw [hfault] at h
    refine ⟨rfl, ?_⟩
    cases hlimit : e.hasStepLimit with
    | true => rfl
    | false =>
      revert h
      show abortKind e = _ → _
      rw [abortKind, hlimit, if_neg Bool.false_ne_true]
      split <;> decide

/-- A program that does not assemble is refused with a fault. -/
theorem fault?_ne_none_of_assemble {program : Bytes} {e : Failure}
    (h : assemble Registry.standard program = .error e) :
    e.fault? ≠ none := by
  rw [assemble] at h
  cases hlines : assembleLines Registry.standard 1 (programLines program) with
  | ok is =>
    rw [hlines] at h
    cases h
  | error e' =>
    rw [hlines] at h
    obtain rfl := Except.error.inj h
    obtain ⟨k, wrong, -, rfl⟩ := assembleLines_eq_error Registry.standard_reachable hlines
    obtain ⟨cause, hfault⟩ := wrong.fault?_failure (1 + k)
    rw [hfault]
    exact Option.some_ne_none _

/-! ## Executing under a limit -/

namespace State

variable {code : Code} {signals : Signals} {fuel : Nat} {s t : State Standard} {ending : Ending}

/-- A run under a limit leaves a step count between the one it has begun with and the limit. -/
theorem steps_of_run (hpos : 0 < s.maxSteps) (hsteps : s.steps ≤ s.maxSteps)
    (hrun : s.run code signals fuel = some (ending, t)) :
    s.steps ≤ t.steps ∧ t.steps ≤ s.maxSteps := by
  have hmetered := metered_of_run Standard.keep_meter s.only_true hpos hrun
  have hcount := hmetered.steps
  have hwithin := hmetered.within
  rw [Int64.le_iff_toInt_le] at hsteps ⊢
  rw [Int64.le_iff_toInt_le]
  omega

/-- A run that is stopped by the limit has taken as many steps as the limit says. -/
theorem steps_of_isStepLimit (hpos : 0 < s.maxSteps) (hsteps : s.steps ≤ s.maxSteps)
    (hrun : s.run code signals fuel = some (ending, t)) (hlimit : ending.isStepLimit = true) :
    t.steps = s.maxSteps := by
  have hnever : ¬ FailsLikeLimit code signals s :=
    not_failsLikeLimit Standard.keep_meter s.only_true fun _ _ _ _ _ =>
      Standard.hasStepLimit_of_exec
  rw [isStepLimit_iff Standard.keep_meter s.only_true hpos hrun, or_iff_left hnever,
    reachesLimit_iff Standard.keep_meter s.only_true hpos] at hlimit
  obtain ⟨n, u, hu, hexhausted⟩ := hlimit
  obtain ⟨-, rfl⟩ := hu.eq_of_run hexhausted hrun
  have hmetered := hu.metered Standard.keep_meter s.only_true hpos
  cases hexhausted with
  | exhausted _ hreached =>
    exact Int64.le_antisymm (steps_of_run hpos hsteps hrun).2
      ((hmetered.atLimit_iff hpos).mp hreached)

end State

/-- Executing a program that assembles answers with what its run has come to. -/
theorem execute_of_run {program : Bytes} {code : Code}
    (hcode : assemble Registry.standard program = .ok code) {debug : Bool} {limit : Int64}
    {signals : Signals} {fuel : Nat} {ending : Ending} {t : State Standard}
    (hrun : State.run code signals fuel
      { State.new Registry.standard debug with maxSteps := limit } = some (ending, t)) :
    execute program debug limit signals fuel Registry.standard =
      some (.ok
        { result := ending.result, output := t.output.toBytes, trace := t.stdout.toBytes
          steps := t.steps, fault := ending.failure?.map .ofFailure }, .standard) := by
  have hfresh : State.Spoken { State.new Registry.standard debug with maxSteps := limit } :=
    ⟨rfl, rfl, rfl⟩
  obtain ⟨ht, hending⟩ := hfresh.run hrun
  rw [execute, hcode]
  dsimp only
  rw [hrun, ← ht.registry]
  rcases hending with ⟨v, rfl⟩ | ⟨e, rfl, -⟩
  · rfl
  · rfl

/-- A response that keeps to a step limit: it has counted no more steps, and tells of the limit only
if it has counted as many. -/
structure Wire.RunResponse.Within (response : Wire.RunResponse) (limit : Int64) : Prop where
  nonneg : 0 ≤ response.steps
  steps_le : response.steps ≤ limit
  steps_eq : ∀ f ∈ response.fault, f.kind = utf8 "step_limit" → response.steps = limit

/-- Executing a program under a positive limit comes to an answer that keeps to it. -/
theorem execute_within (program : Bytes) (debug : Bool) {limit : Int64} (signals : Signals)
    {fuel : Nat} (hpos : 0 < limit) (hfuel : limit.toInt.toNat < fuel) :
    ∃ response, execute program debug limit signals fuel Registry.standard =
      some (.ok response, .standard) ∧
      response.Within limit := by
  cases hassemble : assemble Registry.standard program with
  | error e =>
    refine ⟨{ fault := some (.ofFailure e) }, ?_, Int64.le_refl 0, Int64.le_of_lt hpos, ?_⟩
    · rw [execute, hassemble]
    · intro f hf hkind
      obtain rfl := Option.some.inj hf
      exact absurd (Wire.FaultInfo.of_kind_eq_stepLimit hkind).1
        (fault?_ne_none_of_assemble hassemble)
  | ok code =>
    let s : State Standard := { State.new Registry.standard debug with maxSteps := limit }
    have hbudget : (s.maxSteps.toInt - s.steps.toInt).toNat = limit.toInt.toNat :=
      congrArg Int.toNat (Int.sub_zero limit.toInt)
    obtain ⟨ending, t, hrun⟩ :=
      State.run_isSome_of_limit Standard.keep_meter code signals s.only_true hpos (hbudget ▸ hfuel)
    have hfresh : s.steps ≤ s.maxSteps := Int64.le_of_lt hpos
    obtain ⟨hnonneg, hle⟩ := State.steps_of_run hpos hfresh hrun
    refine ⟨_, execute_of_run hassemble hrun, hnonneg, hle, ?_⟩
    intro f hf hkind
    obtain ⟨e, he, rfl⟩ := Option.map_eq_some_iff.mp hf
    refine State.steps_of_isStepLimit hpos hfresh hrun ?_
    rw [Ending.isStepLimit, he]
    exact (Wire.FaultInfo.of_kind_eq_stepLimit hkind).2

/-! ## The tightest limit -/

namespace Service

/-- The smaller of the limits that are positive, if one of them is. -/
def tightest? (configured requested : Int64) : Option Int64 :=
  ([configured, requested].filter (0 < ·)).min?

/-- The limit of a run is the tightest one, if there is one. -/
theorem stepLimit_of_tightest? {configured requested limit : Int64}
    (h : tightest? configured requested = some limit) :
    stepLimit configured requested = limit ∧ 0 < limit := by
  simp only [tightest?, List.filter_cons, List.filter_nil, decide_eq_true_eq] at h
  rw [stepLimit]
  rcases Int64.lt_or_le 0 requested with hrequested | hrequested
  · rw [if_neg (Int64.not_le.mpr hrequested)]
    rw [if_pos hrequested] at h
    rcases Int64.lt_or_le 0 configured with hconfigured | hconfigured
    · rw [if_pos hconfigured] at h
      have hmin : (if configured ≤ requested then configured else requested) = limit :=
        Option.some.inj h
      rcases Int64.lt_or_le requested configured with hlt | hle
      · rw [if_neg (Int64.not_le.mpr hlt)] at hmin
        rw [if_pos (.inr hlt), ← hmin]
        exact ⟨rfl, hrequested⟩
      · rw [if_pos hle] at hmin
        rw [if_neg (not_or.mpr ⟨Int64.not_le.mpr hconfigured, Int64.not_lt.mpr hle⟩), ← hmin]
        exact ⟨rfl, hconfigured⟩
    · rw [if_neg (Int64.not_lt.mpr hconfigured)] at h
      obtain rfl := Option.some.inj h
      rw [if_pos (.inl hconfigured)]
      exact ⟨rfl, hrequested⟩
  · rw [if_neg (Int64.not_lt.mpr hrequested)] at h
    rw [if_pos hrequested]
    rcases Int64.lt_or_le 0 configured with hconfigured | hconfigured
    · rw [if_pos hconfigured] at h
      obtain rfl := Option.some.inj h
      exact ⟨rfl, hconfigured⟩
    · rw [if_neg (Int64.not_lt.mpr hconfigured)] at h
      cases h

/-- A request that asks for no less than the cap, or for no limit at all, is run under the cap. -/
theorem stepLimit_of_exceeds {configured requested : Int64} (hpos : 0 < configured)
    (h : configured ≤ requested ∨ requested ≤ 0) : stepLimit configured requested = configured := by
  unfold stepLimit
  split
  · rfl
  · next hasked =>
    have hle := h.resolve_right hasked
    exact if_neg (not_or.mpr ⟨Int64.not_le.mpr hpos, Int64.not_lt.mpr hle⟩)

/-- **No request exceeds the cap.** A service over the standard instructions, whose worker has not
been stopped, is asked to run a program that is not empty, and there is time. Whatever limits the
service sets and the request asks for:

* if there is a tightest of the two, the run ends, and the response is, apart from the name of the
  record, what executing the program under this limit comes to. It keeps to the limit;
* under a cap, a request that asks for more steps or for any number of them is answered like one
  that asks for the cap. -/
theorem run_eq_execute_tightest {s : Service Standard} {request : Wire.RunRequest} {o : Occasion}
    (hregistry : s.worker.registry = .standard) (hrunning : s.worker.stopped = false)
    (hne : request.program ≠ []) (htime : s.InTime o) :
    (∀ limit, tightest? s.maxSteps request.maxSteps = some limit → limit.toInt.toNat < o.fuel →
      ∃ response s' answer, s.run request o = some (.ok response, s') ∧
        execute request.program request.debug limit .none o.fuel Registry.standard =
          some (.ok answer, .standard) ∧
        { response with runId := [] } = { answer with runId := [] } ∧
        0 ≤ response.steps ∧ response.steps ≤ limit ∧
        ∀ f ∈ response.fault, f.kind = utf8 "step_limit" → response.steps = limit) ∧
    (0 < s.maxSteps → s.maxSteps < request.maxSteps ∨ request.maxSteps ≤ 0 →
      s.run request o = s.run { request with maxSteps := s.maxSteps } o) := by
  constructor
  · intro limit htightest hfuel
    obtain ⟨hlimit, hpos⟩ := stepLimit_of_tightest? htightest
    obtain ⟨answer, hexecute, hwithin⟩ :=
      execute_within request.program request.debug .none hpos hfuel
    have hsignals : s.deadline o.elapsed = .none := funext htime
    have hrun := run_of_execute (s := s) (o := o) hne hrunning
      (by rw [hlimit, hsignals, hregistry]; exact hexecute)
    have hsame :=
      remember_nameless { s with worker.registry := .standard } request.program answer o.stamp
    refine ⟨_, _, answer, hrun, hexecute, hsame, ?_⟩
    have hsteps := congrArg Wire.RunResponse.steps hsame
    have hfault := congrArg Wire.RunResponse.fault hsame
    dsimp only at hsteps hfault
    rw [hsteps, hfault]
    exact ⟨hwithin.nonneg, hwithin.steps_le, hwithin.steps_eq⟩
  · intro hcap hexceeds
    have hlimit : stepLimit s.maxSteps request.maxSteps = stepLimit s.maxSteps s.maxSteps := by
      rw [stepLimit_of_exceeds hcap (hexceeds.imp_left Int64.le_of_lt),
        stepLimit_of_exceeds hcap (.inl (Int64.le_refl _))]
    rw [run, run, hlimit]

/-- A server under a cap of three steps that records its runs. -/
def cappedServer : Service Standard :=
  { worker := { registry := .standard }, store := some .memory, maxSteps := 3 }

/-- An occasion with fuel for a run under the cap. -/
def briefOccasion : Occasion := { elapsed := fun _ => 0, fuel := 4, stamp := ⟨utf8 "run-1", 0⟩ }

theorem inTime_briefOccasion : cappedServer.InTime briefOccasion := by
  intro turn
  exact if_neg fun htimeout => absurd htimeout.1 (by decide)

/-- A request to run an endless loop. -/
def endless (maxSteps : Int64) : Wire.RunRequest := { program := utf8 "JMP 0", maxSteps }

theorem execute_endless :
    ∃ response, execute (endless 3).program (endless 3).debug 3 .none 4 Registry.standard =
        some (.ok response, .standard) ∧
      response.fault.map (·.kind) = some (utf8 "step_limit") := by
  have hassemble : StackMachine.assemble Registry.standard (utf8 "JMP 0") = .ok #[⟨9, 0⟩] := by
    have hlines : textLines (utf8 "JMP 0") = [utf8 "JMP 0"] := by decide
    rw [StackMachine.assemble, programLines_eq, hlines]
    simp only [assembleLines, assembleLine, split_eq_splitOn (by decide : ascii ' ' < 128)]
    decide
  exact ⟨_, execute_of_run hassemble rfl, rfl⟩

/-- An endless loop is stopped by the cap, also if the request asks for more steps or for
no limit. -/
theorem run_eq_execute_tightest_endless :
    ∃ response s',
      (∀ asked ∈ [-1, 0, 5], cappedServer.run (endless asked) briefOccasion =
        some (.ok response, s')) ∧
      response.steps = 3 ∧ response.fault.map (·.kind) = some (utf8 "step_limit") := by
  have hne : ∀ asked, (endless asked).program ≠ [] := fun _ => show utf8 "JMP 0" ≠ [] by decide
  have hcapped := fun asked => run_eq_execute_tightest (s := cappedServer) rfl rfl (hne asked)
    inTime_briefOccasion
  obtain ⟨response, s', answer, hrun, hexecute, hsame, -, -, hsteps⟩ :=
    (hcapped 3).1 3 (by decide) (by decide)
  obtain ⟨answer', hexecute', hkind⟩ := execute_endless
  obtain rfl := Except.ok.inj (Prod.mk.inj (Option.some.inj (hexecute.symm.trans hexecute'))).1
  have hfault := congrArg Wire.RunResponse.fault hsame
  dsimp only at hfault
  rw [← hfault] at hkind
  obtain ⟨f, hf, hstepLimit⟩ := Option.map_eq_some_iff.mp hkind
  refine ⟨response, s', ?_, hsteps f hf hstepLimit, hkind⟩
  intro asked hasked
  have hexceeds : 3 < asked ∨ asked ≤ 0 := by
    rw [List.mem_cons, List.mem_cons, List.mem_singleton] at hasked
    rcases hasked with rfl | rfl | rfl
    · exact .inr (by decide)
    · exact .inr (by decide)
    · exact .inl (by decide)
  exact ((hcapped asked).2 (by decide) hexceeds).trans hrun

end Service

end StackMachine
