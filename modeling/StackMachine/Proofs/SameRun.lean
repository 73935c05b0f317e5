import StackMachine.Cli.Command
import StackMachine.Proofs.Replies

/-!
# The command and the service run programs alike

There are two ways to have a program run: the command runs it itself and prints what comes of it,
the service runs it and answers with a message. Each assembles, runs, reports and records on its
own. `execute_eq` says that the answer of the service is what the command has found out, put into a
message (`Result.response`); that they print and record the same follows from it.

What the command prints as its complaint is worded differently from the fault in the answer and
cannot be told from it, but it depends on nothing but the program and the settings of the run
either.
-/

namespace StackMachine

open Text

/-! ## Recorded runs -/

namespace History

/-- Two records of a run differ at most in what the recording adds: the name, the time and the
digest. -/
structure Run.SameOutcome (a b : Run) : Prop where
  program : a.program = b.program
  result : a.result = b.result
  output : a.output = b.output
  faultKind : a.faultKind = b.faultKind
  faultMessage : a.faultMessage = b.faultMessage
  steps : a.steps = b.steps

theorem Draft.sameOutcome_complete (d : Draft) (stamp stamp' : Stamp) :
    (d.complete stamp).SameOutcome (d.complete stamp') :=
  ⟨rfl, rfl, rfl, rfl, rfl, rfl⟩

end History

/-- The service records a response as it is. -/
theorem Service.store_remember {s : Service Standard} {base : History.Store} {program : Bytes}
    {response : Wire.RunResponse} {stamp : History.Stamp} (hstore : s.store = some base)
    (hadmits : base.Admits stamp.id) :
    (s.remember program response stamp).2.store =
      some (base.add ((response.draft program).complete stamp)) := by
  rw [remember_eq hstore hadmits]

namespace Cli

/-! ## Evaluating -/

/-- A result as the message that the service answers with. -/
def Result.response (r : Result) : Wire.RunResponse :=
  { result := r.value, output := r.output, trace := r.trace, steps := r.steps
    fault := r.failure.map .ofFailure }

/-- What is complained about after a failure. -/
def Result.complaint (r : Result) : Bytes :=
  match r.failure with
  | some e => line (utf8 "svm: " ++ e.message)
  | none => []

/-- Evaluating depends only on the program, on the two settings of the run and on what has arrived
from outside. -/
theorem evaluate_congr {m m' : Manifest} {s s' : Surroundings} (program : Bytes)
    (hdebug : m.debug = m'.debug) (hmaxSteps : m.maxSteps = m'.maxSteps)
    (hinterrupt : s.interrupt = s'.interrupt) (hfuel : s.fuel = s'.fuel) :
    evaluate m program s = evaluate m' program s' := by
  unfold evaluate
  rw [hdebug, hmaxSteps, hinterrupt, hfuel]

/-- The service answers what the command has found out. -/
theorem execute_eq {m : Manifest} {s : Surroundings} (program : Bytes)
    (hinterrupt : s.interrupt = none) :
    execute program m.debug m.maxSteps Signals.none s.fuel Registry.standard =
      (evaluate m program s).map fun answer => (answer.map Result.response, .standard) := by
  have hstate :
      { State.new Registry.standard m.debug with
        maxSteps := m.maxSteps, interrupt := s.interrupt } =
      { State.new Registry.standard m.debug with maxSteps := m.maxSteps } := by
    rw [hinterrupt]
    rfl
  have hfresh : State.Spoken { State.new Registry.standard m.debug with maxSteps := m.maxSteps } :=
    ⟨rfl, rfl, rfl⟩
  unfold execute evaluate
  rw [hstate]
  generalize
    ({ State.new Registry.standard m.debug with maxSteps := m.maxSteps } : State Standard) =
      fresh at hfresh ⊢
  dsimp only
  rw [hfresh.registry]
  cases assemble Registry.standard program with
  | error e => rfl
  | ok code =>
    dsimp only
    cases hrun : State.run code Signals.none s.fuel fresh with
    | none => rfl
    | some x =>
      obtain ⟨ending, t⟩ := x
      -- a run leaves the instructions as they were, so both sides answer with the standard ones,
      -- and it does not break down
      obtain ⟨ht, ⟨v, rfl⟩ | ⟨e, rfl, -⟩⟩ := hfresh.run hrun
      · simp [ht.registry, Except.map, Result.response]
      · simp [ht.registry, Except.map, Result.response]

/-! ## Reporting -/

/-- What a command prints of a response: its trace, its output on a line of its own, and its result
if there is one. -/
def shown (response : Wire.RunResponse) : Bytes :=
  response.trace ++ (if response.output = [] then [] else line response.output)
    ++ (if response.fault = none then line (utf8 "=> " ++ word response.result) else [])

/-- What a command reports when it has evaluated a program. -/
theorem runProgram_eq {m : Manifest} {s : Surroundings} {program : Bytes} {r : Result}
    (h : evaluate m program s = some (.ok r)) (record : Bool) (fs : FileSystem) :
    runProgram m program record s fs =
      .report
        { code := if r.response.fault = none then 0 else 1
          stdout := shown r.response
          stderr := r.complaint
          files :=
            if record && m.historyEnabled then remember m (r.response.draft program) s.stamp fs
            else fs } := by
  unfold runProgram
  rw [h]
  obtain ⟨value, output, trace, steps, failure⟩ := r
  cases failure with
  | none => rfl
  | some e =>
    simp only [shown, Result.response, Option.map_some, reduceCtorEq, if_false, List.append_nil]
    rfl

/-- The command records a draft where it can. -/
theorem remember_eq {m : Manifest} {fs opened : FileSystem} {store : History.Store}
    {d : History.Draft} {stamp : History.Stamp}
    (hopen : History.openStore fs m.historyPath = (.ok store, opened)) (hid : d.id = [])
    (hadmits : store.Admits stamp.id) :
    remember m d stamp fs = (store.add (d.complete stamp)).save opened := by
  unfold remember
  rw [hopen]
  dsimp only
  rw [History.Store.record_eq_ok hid hadmits]

/-! ## Alike -/

/-- A command runs programs with these settings and for this many turns, and nobody asks it
to stop. -/
structure RunsWith (debug : Bool) (limit : Int64) (fuel : Nat) (m : Manifest) (s : Surroundings) :
    Prop where
  debug : m.debug = debug
  maxSteps : m.maxSteps = limit
  interrupt : s.interrupt = none
  fuel : s.fuel = fuel

/-- The command reports and records what the service answers and records. What it prints and the
code it ends with are the same whether or not it is to record the run, and whether or not it can. -/
theorem runProgram_eq_execute (program : Bytes) (debug : Bool) (limit : Int64) (fuel : Nat) :
    (execute program debug limit Signals.none fuel Registry.standard = none ∧
      ∀ m s record fs, RunsWith debug limit fuel m s →
        runProgram m program record s fs = .unfinished) ∨
    ∃ response stderr,
      execute program debug limit Signals.none fuel Registry.standard =
        some (.ok response, .standard) ∧
      ∀ m s record fs, RunsWith debug limit fuel m s →
        ∃ files,
          runProgram m program record s fs =
            .report
              { code := if response.fault = none then 0 else 1
                stdout := shown response
                stderr
                files } ∧
          ((record && m.historyEnabled) = false → files = fs) ∧
          ((record && m.historyEnabled) = true → ∀ store opened,
            History.openStore fs m.historyPath = (.ok store, opened) → store.Admits s.stamp.id →
              ∃ own, files = (store.add own).save opened ∧
                ∀ (service : Service Standard) base stamp, service.store = some base →
                  base.Admits stamp.id →
                  ∃ run, (service.remember program response stamp).2.store = some (base.add run) ∧
                    own.SameOutcome run) := by
  -- A command with these settings, to stand for all of them.
  let m₀ : Manifest := { debug, maxSteps := limit }
  let s₀ : Surroundings := { files := {}, stdin := .ok [], stamp := ⟨[], 0⟩, fuel }
  have hexecute : execute program debug limit Signals.none fuel Registry.standard =
      (evaluate m₀ program s₀).map fun answer => (answer.map Result.response, .standard) :=
    execute_eq (m := m₀) (s := s₀) program rfl
  have hsame : ∀ m s, RunsWith debug limit fuel m s →
      evaluate m program s = evaluate m₀ program s₀ :=
    fun m s h => evaluate_congr program h.debug h.maxSteps h.interrupt h.fuel
  cases hevaluate : evaluate m₀ program s₀ with
  | none =>
    rw [hevaluate] at hexecute
    refine .inl ⟨hexecute, ?_⟩
    intro m s record fs h
    rw [runProgram, hsame m s h, hevaluate]
  | some answer =>
    rw [hevaluate] at hexecute
    cases answer with
    | error message =>
      obtain ⟨-, response, hresponse, -⟩ := execute_standard hexecute
      cases hresponse
    | ok r =>
      refine .inr ⟨r.response, r.complaint, hexecute, ?_⟩
      intro m s record fs h
      refine ⟨_, runProgram_eq ((hsame m s h).trans hevaluate) record fs, ?_, ?_⟩
      · intro hnot
        rw [hnot]
        rfl
      · intro hrecord store opened hopen hadmits
        refine ⟨(r.response.draft program).complete s.stamp, ?_, ?_⟩
        · rw [if_pos hrecord]
          exact remember_eq hopen rfl hadmits
        · intro service base stamp hstore hbase
          exact ⟨_, Service.store_remember hstore hbase, History.Draft.sameOutcome_complete _ _ _⟩

/-- A blank line is refused by both, and both record the refusal. -/
theorem runProgram_eq_execute_blank :
    let m : Manifest := { historyFile := History.Place.memoryName }
    let s : Surroundings := { files := {}, stdin := .ok [], stamp := ⟨utf8 "b", 1⟩, fuel := 1 }
    let service : Service Standard := { worker := { registry := .standard }, store := some .memory }
    ∃ response stderr files store own run,
      execute [10] m.debug m.maxSteps Signals.none s.fuel Registry.standard =
        some (.ok response, .standard) ∧
      response.fault ≠ none ∧
      runProgram m [10] true s s.files = .report { code := 1, stdout := [], stderr, files } ∧
      files = (History.Store.add store own).save s.files ∧
      (service.remember [10] response ⟨utf8 "a", 0⟩).2.store = some (History.Store.memory.add run) ∧
      own.SameOutcome run := by
  intro m s service
  have hassemble : assemble Registry.standard [10] = .error (LineError.empty.failure 1) := by
    rw [assemble, show [10] = List.replicate 1 (10 : UInt8) from rfl, programLines_newlines]
    rfl
  have hexecute : execute [10] m.debug m.maxSteps Signals.none s.fuel Registry.standard =
      some (.ok { fault := some (.ofFailure (LineError.empty.failure 1)) }, .standard) := by
    rw [execute, hassemble]
  have hquery : Query.parameters [] = .ok [] := by
    unfold Query.parameters
    rw [pieces]
    rfl
  have hopen : History.openStore s.files m.historyPath =
      (.ok { path := History.Place.memoryName }, s.files) := by
    unfold History.openStore History.findStore History.Place.ofName History.Place.checkName
    have hname : History.Place.queryOf m.historyPath = [] := by decide
    rw [hname, hquery]
    rfl
  have hadmits : ∀ id, History.Store.Admits { path := History.Place.memoryName } id := by
    intro id
    exact ⟨rfl, by decide, rfl⟩
  rcases runProgram_eq_execute [10] m.debug m.maxSteps s.fuel with
    ⟨hnone, -⟩ | ⟨response, stderr, hresponse, hcommand⟩
  · rw [hnone] at hexecute
    cases hexecute
  · obtain rfl : _ = response :=
      Except.ok.inj (Prod.mk.inj (Option.some.inj (hexecute.symm.trans hresponse))).1
    obtain ⟨files, hreport, -, hrecorded⟩ := hcommand m s true s.files ⟨rfl, rfl, rfl, rfl⟩
    obtain ⟨own, hfiles, hservice⟩ := hrecorded rfl _ _ hopen (hadmits _)
    obtain ⟨run, hrun, hsame⟩ := hservice service .memory ⟨utf8 "a", 0⟩ rfl (hadmits _)
    exact ⟨_, stderr, files, _, own, run, hresponse, Option.some_ne_none _, hreport, hfiles, hrun,
      hsame⟩

end Cli

end StackMachine
