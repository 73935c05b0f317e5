import StackMachine.Proofs.Replies
import Mathlib.Data.List.Induction
import Mathlib.Data.List.Nodup

/-!
# Runs and their records

A service with a store records what it has told its clients. For every sequence of requests to run a
program (`Service.Serves`) the store holds afterwards what it held before, and behind it one run for
each response that bears a name, in the order of the requests (`Serves.recordsIn`). What the store
answers when it is asked for a run or for the newest ones follows from this (`history_of_serves`).

A response has no name when an instruction broke down: such a run is answered but not recorded
(`store_eq_of_breaksDown`). It is the only one (`count_of_serves`).
-/

namespace StackMachine

open Text

/-! ## The store -/

namespace History

namespace Log

theorem notOlder_trans {a b c : Run} (hab : notOlder a b = true) (hbc : notOlder b c = true) :
    notOlder a c = true := by
  simp only [notOlder, decide_eq_true_iff] at hab hbc ⊢
  exact Int64.le_trans hbc hab

theorem notOlder_total (a b : Run) : (notOlder a b || notOlder b a) = true := by
  simp only [notOlder, Bool.or_eq_true, decide_eq_true_iff]
  exact Int64.le_total _ _

/-- Recording a run puts it among those that are shown: behind all that are newer, and in front of
all others. -/
theorem newestFirst_insert (log : Log) (run : Run) :
    ∃ newer rest : List Run, newestFirst log = newer ++ rest ∧
      newestFirst (log ++ [run]) = newer ++ run :: rest ∧
      (∀ old ∈ newer, run.createdAt < old.createdAt) ∧
      ∀ old ∈ rest, old.createdAt ≤ run.createdAt := by
  have hconcat : newestFirst (log ++ [run]) = (run :: log.reverse).mergeSort notOlder := by
    rw [newestFirst, List.reverse_append, List.reverse_singleton, List.singleton_append]
  obtain ⟨newer, rest, hsorted, hlog, hnewer⟩ :=
    @List.mergeSort_cons _ notOlder (fun _ _ _ => notOlder_trans) notOlder_total run log.reverse
  have hordered :
      ((run :: log.reverse).mergeSort notOlder).Pairwise fun a b => notOlder a b = true :=
    @List.pairwise_mergeSort _ notOlder (fun _ _ _ => notOlder_trans) notOlder_total _
  rw [hsorted, List.pairwise_append, List.pairwise_cons] at hordered
  refine ⟨newer, rest, hlog, hconcat.trans hsorted, fun old hold => ?_, fun old hold => ?_⟩
  · have hnot := hnewer old hold
    rwa [notOlder, Bool.not_eq_true', decide_eq_false_iff_not, Int64.not_le] at hnot
  · have hbehind := hordered.2.1.1 old hold
    rwa [notOlder, decide_eq_true_iff] at hbehind

/-- A run that is not older than any recorded before it is shown in front of them. -/
theorem newestFirst_concat {log : Log} {run : Run}
    (h : ∀ old ∈ log, old.createdAt ≤ run.createdAt) :
    newestFirst (log ++ [run]) = run :: newestFirst log := by
  obtain ⟨newer, rest, hlog, hconcat, hnewer, -⟩ := newestFirst_insert log run
  -- nothing is shown in front of the run, because nothing is newer
  have hnone : newer = [] := by
    refine List.eq_nil_iff_forall_not_mem.mpr fun old hold => ?_
    have hmem : old ∈ log := by
      have hold' : old ∈ newestFirst log := hlog ▸ List.mem_append_left _ hold
      simpa [newestFirst] using hold'
    exact Int64.not_le.mpr (hnewer old hold) (h old hmem)
  rw [hconcat, hlog, hnone, List.nil_append, List.nil_append]

/-- Runs that are recorded while the clock does not go back are shown in front of the older ones,
the last first. -/
theorem newestFirst_append {log runs : Log} (hordered : runs.Pairwise (·.createdAt ≤ ·.createdAt))
    (hlater : ∀ run ∈ runs, ∀ old ∈ log, old.createdAt ≤ run.createdAt) :
    newestFirst (log ++ runs) = runs.reverse ++ newestFirst log := by
  induction runs using List.reverseRecOn with
  | nil => rw [List.append_nil, List.reverse_nil, List.nil_append]
  | append_singleton runs run ih =>
    rw [List.pairwise_append] at hordered
    have hnewest : ∀ old ∈ log ++ runs, old.createdAt ≤ run.createdAt := by
      intro old hold
      rcases List.mem_append.mp hold with hold | hold
      · exact hlater run (by simp) old hold
      · exact hordered.2.2 old hold run (List.mem_singleton_self run)
    rw [← List.append_assoc, newestFirst_concat hnewest,
      ih hordered.1 fun run' hrun' => hlater run' (List.mem_append_left _ hrun')]
    simp

/-- Where names are not used twice, there is one run of each name. -/
theorem filter_id_eq {runs : Log} {run : Run} (hnodup : (runs.map (·.id)).Nodup)
    (hrun : run ∈ runs) :
    runs.filter (·.id = run.id) = [run] := by
  induction runs with
  | nil => cases hrun
  | cons first runs ih =>
    rw [List.map_cons, List.nodup_cons] at hnodup
    obtain ⟨hnew, hnodup⟩ := hnodup
    rcases List.mem_cons.mp hrun with rfl | hrun
    · rw [List.filter_cons_of_pos (by simp), List.filter_eq_nil_iff.mpr]
      intro other hother heq
      exact hnew (List.mem_map.mpr ⟨other, hother, of_decide_eq_true heq⟩)
    · have hother : first.id ≠ run.id := fun heq => hnew (heq ▸ List.mem_map_of_mem hrun)
      rw [List.filter_cons_of_neg (by simpa using hother), ih hnodup hrun]

theorem get?_eq_head? (log : Log) (id : Bytes) : log.get? id = (log.filter (·.id = id)).head? := by
  rw [get?, List.head?_filter]

end Log

namespace Store

variable {s : Store}

theorem available_of_isOpen (h : s.isOpen = true) : s.available none = .ok () := by
  simp [available, h]

theorem get?_of_isOpen (h : s.isOpen = true) (id : Bytes) :
    s.get? none id = .ok (s.log.get? id) := by
  rw [get?, available_of_isOpen h]
  rfl

theorem recent_of_isOpen (h : s.isOpen = true) (limit : Int64) :
    s.recent none limit = .ok (s.log.recent limit) := by
  rw [recent, available_of_isOpen h]
  rfl

theorem count_of_isOpen (h : s.isOpen = true) : s.count none = .ok s.log.length := by
  rw [count, available_of_isOpen h]
  rfl

end Store

/-- The stamp that a run was recorded with. -/
def Run.stamp (run : Run) : Stamp := ⟨run.id, run.createdAt⟩

/-- The stamps of recordings that follow one another in a store: every name is new, and the clock
does not go back. -/
structure InSequence (log : Log) (stamps : List Stamp) : Prop where
  named : ∀ stamp ∈ stamps, stamp.id ≠ []
  distinct : (stamps.map (·.id)).Nodup
  unused : ∀ stamp ∈ stamps, ∀ run ∈ log, run.id ≠ stamp.id
  ordered : stamps.Pairwise (·.now ≤ ·.now)
  later : ∀ stamp ∈ stamps, ∀ run ∈ log, run.createdAt ≤ stamp.now

theorem InSequence.sublist {log : Log} {stamps part : List Stamp} (h : InSequence log stamps)
    (hpart : part.Sublist stamps) : InSequence log part where
  named stamp hstamp := h.named stamp (hpart.subset hstamp)
  distinct := h.distinct.sublist (hpart.map _)
  unused stamp hstamp := h.unused stamp (hpart.subset hstamp)
  ordered := h.ordered.sublist hpart
  later stamp hstamp := h.later stamp (hpart.subset hstamp)

/-- A name that comes later in the sequence is not in use yet. -/
theorem InSequence.get?_eq_none {log runs : Log} {stamps : List Stamp} {stamp : Stamp}
    (h : InSequence log (stamps ++ [stamp])) (hruns : (runs.map (·.stamp)).Sublist stamps) :
    Log.get? (log ++ runs) stamp.id = none := by
  refine List.find?_eq_none.mpr fun run hrun => ?_
  rw [decide_eq_true_iff]
  rcases List.mem_append.mp hrun with hold | hnew
  · exact h.unused stamp (by simp) run hold
  · have hdistinct := h.distinct
    rw [List.map_append, List.map_singleton] at hdistinct
    have hearlier : run.id ∈ stamps.map (·.id) :=
      List.mem_map.mpr ⟨run.stamp, hruns.subset (List.mem_map_of_mem hnew), rfl⟩
    rintro heq
    exact List.disjoint_of_nodup_append hdistinct hearlier (List.mem_singleton.mpr heq)

/-- The runs that were recorded in sequence are found by their names, one for each. -/
theorem InSequence.filter_id_eq {log runs : Log} {run : Run}
    (h : InSequence log (runs.map (·.stamp))) (hrun : run ∈ runs) :
    (log ++ runs).filter (·.id = run.id) = [run] := by
  have hnodup : (runs.map (·.id)).Nodup := by simpa [Function.comp_def, Run.stamp] using h.distinct
  have hbefore : log.filter (·.id = run.id) = [] := by
    refine List.filter_eq_nil_iff.mpr fun old hold heq => ?_
    exact h.unused run.stamp (List.mem_map_of_mem hrun) old hold (of_decide_eq_true heq)
  rw [List.filter_append, hbefore, List.nil_append, Log.filter_id_eq hnodup hrun]

/-- The runs that were recorded in sequence are the newest. -/
theorem InSequence.newestFirst_append {log runs : Log} (h : InSequence log (runs.map (·.stamp))) :
    Log.newestFirst (log ++ runs) = runs.reverse ++ Log.newestFirst log := by
  have hordered := h.ordered
  rw [List.pairwise_map] at hordered
  exact Log.newestFirst_append hordered fun run hrun => h.later run.stamp (List.mem_map_of_mem hrun)

end History

/-! ## Faults -/

theorem FaultKind.name_ne_nil (k : FaultKind) : k.name ≠ [] := by
  unfold name
  split
  · next kind text hfind =>
    have htext : ∀ entry ∈ named, entry.2 ≠ [] := by decide
    exact htext _ (List.mem_of_find?_eq_some hfind)
  · exact List.append_ne_nil_of_left_ne_nil (List.append_ne_nil_of_left_ne_nil (by decide) _) _

theorem Wire.FaultInfo.kind_ofFailure_ne_nil (e : Failure) : (FaultInfo.ofFailure e).kind ≠ [] := by
  unfold FaultInfo.ofFailure
  split
  · exact FaultKind.name_ne_nil _
  · show abortKind e ≠ []
    unfold abortKind
    split
    · decide
    · split <;> decide

/-- What made a run fail always has a kind. -/
theorem kind_ne_nil_of_execute {α : Type} [Action α] {program : Bytes} {debug : Bool}
    {maxSteps : Int64} {signals : Signals} {fuel : Nat} {r r' : Registry α}
    {response : Wire.RunResponse}
    (h : execute program debug maxSteps signals fuel r = some (.ok response, r')) :
    ∀ f ∈ response.fault, f.kind ≠ [] := by
  intro f hf
  unfold execute at h
  split at h
  · obtain ⟨heq, -⟩ := Prod.mk.inj (Option.some.inj h)
    obtain rfl := Except.ok.inj heq
    obtain rfl := Option.some.inj hf
    exact Wire.FaultInfo.kind_ofFailure_ne_nil _
  · dsimp only at h
    split at h
    · cases h
    · cases h
    · obtain ⟨heq, -⟩ := Prod.mk.inj (Option.some.inj h)
      obtain rfl := Except.ok.inj heq
      obtain ⟨e, -, rfl⟩ := Option.map_eq_some_iff.mp hf
      exact Wire.FaultInfo.kind_ofFailure_ne_nil e

/-! ## Requests and answers -/

/-- A request to run a program, the occasion, and the answer that the client was given. -/
structure Exchange where
  request : Wire.RunRequest
  occasion : Occasion
  answer : Except Refusal Wire.RunResponse

namespace Exchange

/-- The response, unless the request was refused. -/
def response? (x : Exchange) : Option Wire.RunResponse := x.answer.toOption

/-- The run that is recorded of an exchange whose response bears a name. -/
def record? (x : Exchange) : Option History.Run :=
  match x.response? with
  | some response =>
    if response.runId = [] then none
    else some ((response.draft x.request.program).complete x.occasion.stamp)
  | none => none

theorem record?_of_refusal {x : Exchange} {refusal : Refusal} (h : x.answer = .error refusal) :
    x.record? = none := by
  rw [record?, response?, h]
  rfl

theorem record?_of_response {x : Exchange} {response : Wire.RunResponse}
    (h : x.answer = .ok response) :
    x.record? =
      if response.runId = [] then none
      else some ((response.draft x.request.program).complete x.occasion.stamp) := by
  rw [record?, response?, h]
  rfl

theorem stamp_of_record? {x : Exchange} {run : History.Run} (h : x.record? = some run) :
    run.stamp = x.occasion.stamp := by
  unfold record? at h
  split at h
  · split at h
    · cases h
    · obtain rfl := Option.some.inj h
      rfl
  · cases h

/-- Recorded runs bear stamps of the exchanges, each at most once and in their order. -/
theorem map_stamp_records (exchanges : List Exchange) :
    ((exchanges.filterMap record?).map (·.stamp)).Sublist (exchanges.map (·.occasion.stamp)) := by
  induction exchanges with
  | nil => exact .slnil
  | cons x exchanges ih =>
    rw [List.map_cons]
    cases hx : x.record? with
    | none =>
      rw [List.filterMap_cons_none hx]
      exact ih.cons _
    | some run =>
      rw [List.filterMap_cons_some hx, List.map_cons, stamp_of_record? hx]
      exact ih.cons_cons _

/-- A run holds what the client was told about the program. -/
structure RecordedAs (x : Exchange) (response : Wire.RunResponse) (run : History.Run) : Prop where
  id : run.id = response.runId
  program : run.program = x.request.program
  programHash : run.programHash = History.programHash x.request.program
  result : run.result = response.result
  output : run.output = response.output
  steps : run.steps = response.steps
  faultKind : run.faultKind = (response.fault.map (·.kind)).getD []
  faultMessage : run.faultMessage = (response.fault.map (·.message)).getD []
  failed_iff : run.failed = true ↔ response.fault ≠ none

/-- A response that bears the name of its stamp is recorded as it was given. A fault is told from
none by its kind alone, so it has to have one. -/
theorem exists_recordedAs {x : Exchange} {response : Wire.RunResponse}
    (hanswer : x.answer = .ok response) (hid : response.runId = x.occasion.stamp.id)
    (hname : response.runId ≠ []) (hkinds : ∀ f ∈ response.fault, f.kind ≠ []) :
    ∃ run, x.record? = some run ∧ x.RecordedAs response run := by
  refine ⟨(response.draft x.request.program).complete x.occasion.stamp, ?_, ?_⟩
  · rw [record?_of_response hanswer, if_neg hname]
  · refine ⟨hid.symm, rfl, rfl, rfl, rfl, rfl, rfl, rfl, ?_⟩
    show decide ((response.fault.map (·.kind)).getD [] ≠ []) = true ↔ response.fault ≠ none
    rw [decide_eq_true_iff]
    cases hfault : response.fault with
    | none => simp
    | some f => simpa using hkinds f hfault

/-- There was a response, and it bears a name. -/
def isNamed (x : Exchange) : Bool := x.response?.any (·.runId ≠ [])

theorem isNamed_iff {x : Exchange} :
    x.isNamed = true ↔ ∃ response, x.answer = .ok response ∧ response.runId ≠ [] := by
  unfold isNamed response?
  cases x.answer with
  | error refusal => simp [Except.toOption]
  | ok response => simp [Except.toOption]

theorem isNamed_eq_isSome_record? (x : Exchange) : x.isNamed = x.record?.isSome := by
  unfold isNamed record?
  cases x.response? with
  | none => rfl
  | some response => by_cases hname : response.runId = [] <;> simp [hname]

/-- If the named responses are recorded as they were given, the records are those of the named
responses, in their order. -/
theorem forall₂_records {exchanges : List Exchange}
    (h : ∀ x ∈ exchanges, ∀ response, x.answer = .ok response → response.runId ≠ [] →
      ∃ run, x.record? = some run ∧ x.RecordedAs response run) :
    List.Forall₂ (fun x run => ∃ response, x.answer = .ok response ∧ x.RecordedAs response run)
      (exchanges.filter isNamed) (exchanges.filterMap record?) := by
  induction exchanges with
  | nil => exact .nil
  | cons x exchanges ih =>
    have hrest := ih fun y hy => h y (List.mem_cons_of_mem _ hy)
    cases hrecord : x.record? with
    | none =>
      have hnamed : ¬ x.isNamed = true := by simp [isNamed_eq_isSome_record?, hrecord]
      rw [List.filter_cons_of_neg hnamed, List.filterMap_cons_none hrecord]
      exact hrest
    | some run =>
      have hnamed : x.isNamed = true := by simp [isNamed_eq_isSome_record?, hrecord]
      obtain ⟨response, hanswer, hname⟩ := isNamed_iff.mp hnamed
      obtain ⟨run', hrun', hrecorded⟩ := h x List.mem_cons_self response hanswer hname
      obtain rfl := Option.some.inj (hrecord.symm.trans hrun')
      rw [List.filter_cons_of_pos hnamed, List.filterMap_cons_some hrecord]
      exact .cons ⟨response, hanswer, hrecorded⟩ hrest

/-- There are as many records as responses that bear a name. -/
theorem length_records (exchanges : List Exchange) :
    (exchanges.filterMap record?).length = exchanges.countP isNamed := by
  rw [List.length_filterMap_eq_countP]
  exact List.countP_congr fun x _ => by rw [isNamed_eq_isSome_record?]

end Exchange

namespace Service

variable {α : Type} [Action α]

/-- A service answers requests to run programs, one after another. -/
inductive Serves (s : Service α) : List Exchange → Service α → Prop where
  | start : Serves s [] s
  | step {exchanges t x u} (hserves : Serves s exchanges t)
      (hrun : t.run x.request x.occasion = some (x.answer, u)) : Serves s (exchanges ++ [x]) u

/-- An instruction breaks down, with a message, when a service runs the program of a request. -/
def BreaksDown (s : Service α) (x : Exchange) (message : Bytes) : Prop :=
  ∃ r, execute x.request.program x.request.debug (stepLimit s.maxSteps x.request.maxSteps)
    (s.deadline x.occasion.elapsed) x.occasion.fuel s.worker.registry = some (.error message, r)

/-- What a request comes to at a service whose store takes in the run. The last of the services is
the one that the request leaves. -/
inductive Outcome (s : Service α) (store : History.Store) (x : Exchange) (s' : Service α) :
    Prop where
  | refused (refusal : Refusal) (hanswer : x.answer = .error refusal)
      (hkept : s'.store = some store)
  | stopped (hstopped : s.worker.stopped = true) (hanswer : x.answer = .ok (unanswered .stopped))
      (hkept : s'.store = some store)
  | broke (message : Bytes) (hbreaks : s.BreaksDown x message)
      (hanswer : x.answer = .ok (unanswered (.broke message)))
      (hkept : s'.store = some store)
  | recorded (response : Wire.RunResponse) (hends : ∀ message, ¬ s.BreaksDown x message)
      (hanswer : x.answer = .ok response) (hid : response.runId = x.occasion.stamp.id)
      (hkinds : ∀ f ∈ response.fault, f.kind ≠ [])
      (hadded : s'.store =
        some (store.add ((response.draft x.request.program).complete x.occasion.stamp)))

/-- One request to a service whose store takes in the run has one of these outcomes, and does not
stop the worker. -/
theorem outcome_of_run {s s' : Service α} {x : Exchange} {store : History.Store}
    (h : s.run x.request x.occasion = some (x.answer, s')) (hstore : s.store = some store)
    (hadmits : store.Admits x.occasion.stamp.id) :
    s'.worker.stopped = s.worker.stopped ∧ Outcome s store x s' := by
  by_cases hprogram : x.request.program = []
  · rw [run, if_pos hprogram] at h
    obtain ⟨hanswer, rfl⟩ := Prod.mk.inj (Option.some.inj h)
    exact ⟨rfl, .refused _ hanswer.symm hstore⟩
  · rcases run_outcomes hprogram h with ⟨hstopped, hanswer, rfl⟩ | ⟨-, result, r, hexecute, hresult⟩
    · exact ⟨rfl, .stopped hstopped hanswer hstore⟩
    · rcases hresult with ⟨message, rfl, hanswer, rfl⟩ | ⟨response, rfl, hanswer, rfl⟩
      · exact ⟨rfl, .broke message ⟨r, hexecute⟩ hanswer hstore⟩
      · have hends : ∀ message, ¬ s.BreaksDown x message := by
          rintro message ⟨r', hbreaks⟩
          rw [hexecute] at hbreaks
          cases hbreaks
        have hkinds := kind_ne_nil_of_execute hexecute
        rw [remember_eq (s := { s with worker.registry := r }) hstore hadmits] at hanswer ⊢
        exact ⟨rfl, .recorded _ hends hanswer rfl hkinds rfl⟩

/-- What a service makes of a program that was executed: a response is remembered, a breakdown is
told. -/
def settle (s : Service α) (program : Bytes) (stamp : History.Stamp) :
    Except Bytes Wire.RunResponse → Except Refusal Wire.RunResponse × Service α
  | .ok response =>
    (.ok (s.remember program response stamp).1, (s.remember program response stamp).2)
  | .error message => (.ok (unanswered (.broke message)), s)

/-- A worker that was not stopped answers every program that comes to an end. -/
theorem run_of_execute {s : Service α} {request : Wire.RunRequest} {o : Occasion}
    {result : Except Bytes Wire.RunResponse} {r : Registry α} (hne : request.program ≠ [])
    (hrunning : s.worker.stopped = false)
    (h : execute request.program request.debug (stepLimit s.maxSteps request.maxSteps)
      (s.deadline o.elapsed) o.fuel s.worker.registry = some (result, r)) :
    s.run request o =
      some ({ s with worker.registry := r }.settle request.program o.stamp result) := by
  obtain ⟨⟨registry, stopped⟩, store, maxSteps, timeout⟩ := s
  obtain rfl : stopped = false := hrunning
  unfold run
  rw [if_neg hne]
  dsimp only [Worker.perform]
  rw [if_neg Bool.false_ne_true, h]
  cases result <;> rfl

/-- The service records its runs in a store that is open and may be changed. -/
structure RecordsIn (s : Service α) (store : History.Store) : Prop where
  store_eq : s.store = some store
  isOpen : store.isOpen = true
  access : store.place.access ≠ .readOnly

omit [Action α] in
/-- What one more request finds: a store that takes in the run. -/
theorem RecordsIn.admits {s : Service α} {base : History.Store} {exchanges : List Exchange}
    {x : Exchange} (hbase : s.RecordsIn base)
    (hstamps : History.InSequence base.log ((exchanges ++ [x]).map (·.occasion.stamp))) :
    History.Store.Admits { base with log := base.log ++ exchanges.filterMap Exchange.record? }
      x.occasion.stamp.id := by
  rw [List.map_append, List.map_singleton] at hstamps
  exact ⟨hbase.isOpen, hbase.access, hstamps.get?_eq_none (Exchange.map_stamp_records exchanges)⟩

/-- For every sequence of requests the store holds what it held before, and behind it one run for
each response that bears a name. -/
theorem Serves.recordsIn {s t : Service α} {base : History.Store} {exchanges : List Exchange}
    (h : Serves s exchanges t) (hbase : s.RecordsIn base)
    (hstamps : History.InSequence base.log (exchanges.map (·.occasion.stamp))) :
    t.RecordsIn { base with log := base.log ++ exchanges.filterMap Exchange.record? } ∧
      t.worker.stopped = s.worker.stopped := by
  induction h with
  | start =>
    rw [List.filterMap_nil, List.append_nil]
    exact ⟨hbase, rfl⟩
  | @step exchanges t x u _ hrun ih =>
    obtain ⟨hrecords, hstopped⟩ := ih (hstamps.sublist ((List.sublist_append_left _ _).map _))
    obtain ⟨hsame, houtcome⟩ := outcome_of_run hrun hrecords.store_eq (hbase.admits hstamps)
    refine ⟨⟨?_, hbase.isOpen, hbase.access⟩, hsame.trans hstopped⟩
    -- without a record the list of runs stays the same
    have hsilent : x.record? = none → (exchanges ++ [x]).filterMap Exchange.record? =
        exchanges.filterMap Exchange.record? := by
      intro hrecord
      rw [List.filterMap_append, List.filterMap_cons_none hrecord, List.filterMap_nil,
        List.append_nil]
    cases houtcome with
    | refused refusal hanswer hkept =>
      rw [hsilent (Exchange.record?_of_refusal hanswer)]
      exact hkept
    | stopped _ hanswer hkept =>
      rw [hsilent ((Exchange.record?_of_response hanswer).trans (if_pos rfl))]
      exact hkept
    | broke message _ hanswer hkept =>
      rw [hsilent ((Exchange.record?_of_response hanswer).trans (if_pos rfl))]
      exact hkept
    | recorded response _ hanswer hid _ hadded =>
      have hname : response.runId ≠ [] := hid ▸ hstamps.named _ (by simp)
      have hrecord :
          x.record? = some ((response.draft x.request.program).complete x.occasion.stamp) := by
        rw [Exchange.record?_of_response hanswer, if_neg hname]
      rw [List.filterMap_append, List.filterMap_cons_some hrecord, List.filterMap_nil,
        ← List.append_assoc]
      exact hadded

theorem serves_concat {s u : Service α} {exchanges : List Exchange} {x : Exchange}
    (h : Serves s (exchanges ++ [x]) u) :
    ∃ t, Serves s exchanges t ∧ t.run x.request x.occasion = some (x.answer, u) := by
  generalize hlist : exchanges ++ [x] = list at h
  cases h with
  | start => exact absurd hlist (by simp)
  | @step exchanges' t x' _ hserves hrun =>
    obtain ⟨rfl, hx⟩ := List.append_inj' hlist rfl
    obtain rfl := List.singleton_inj.mp hx
    exact ⟨t, hserves, hrun⟩

/-- Every exchange of a sequence is one request to the service that those before it have left. -/
theorem Serves.exists_run {s t : Service α} {before after : List Exchange} {x : Exchange}
    (h : Serves s (before ++ x :: after) t) :
    ∃ u v, Serves s before u ∧ u.run x.request x.occasion = some (x.answer, v) := by
  induction after using List.reverseRecOn generalizing t with
  | nil =>
    obtain ⟨u, hserves, hrun⟩ := serves_concat h
    exact ⟨u, t, hserves, hrun⟩
  | append_singleton after y ih =>
    rw [← List.cons_append, ← List.append_assoc] at h
    obtain ⟨t', hserves, -⟩ := serves_concat h
    exact ih hserves

/-- What an exchange in the middle of a sequence comes to. -/
theorem Serves.outcome {s t : Service α} {base : History.Store} {before after : List Exchange}
    {x : Exchange} (h : Serves s (before ++ x :: after) t) (hbase : s.RecordsIn base)
    (hstamps : History.InSequence base.log ((before ++ x :: after).map (·.occasion.stamp))) :
    ∃ u v store, Serves s before u ∧ u.run x.request x.occasion = some (x.answer, v) ∧
      u.store = some store ∧
      u.worker.stopped = s.worker.stopped ∧ Outcome u store x v := by
  obtain ⟨u, v, hbefore, hrun⟩ := h.exists_run
  have hinit : History.InSequence base.log ((before ++ [x]).map (·.occasion.stamp)) := by
    refine hstamps.sublist (List.Sublist.map _ ?_)
    rw [List.append_cons before x after]
    exact List.sublist_append_left _ _
  obtain ⟨hrecords, hstopped⟩ := hbefore.recordsIn hbase
    (hinit.sublist (List.Sublist.map _ (List.sublist_append_left _ _)))
  obtain ⟨-, houtcome⟩ := outcome_of_run hrun hrecords.store_eq (hbase.admits hinit)
  exact ⟨u, v, _, hbefore, hrun, hrecords.store_eq, hstopped, houtcome⟩

/-- A response that bears a name is recorded as it was given. -/
theorem Serves.exists_recordedAs {s t : Service α} {base : History.Store}
    {exchanges : List Exchange} (h : Serves s exchanges t) (hbase : s.RecordsIn base)
    (hstamps : History.InSequence base.log (exchanges.map (·.occasion.stamp))) {x : Exchange}
    (hx : x ∈ exchanges) {response : Wire.RunResponse} (hanswer : x.answer = .ok response)
    (hname : response.runId ≠ []) :
    ∃ run, x.record? = some run ∧ x.RecordedAs response run := by
  obtain ⟨before, after, rfl⟩ := List.append_of_mem hx
  obtain ⟨u, v, store, -, -, -, -, houtcome⟩ := h.outcome hbase hstamps
  cases houtcome with
  | refused refusal hanswer' => cases hanswer.symm.trans hanswer'
  | stopped _ hanswer' =>
    obtain rfl := Except.ok.inj (hanswer.symm.trans hanswer')
    exact absurd rfl hname
  | broke message _ hanswer' =>
    obtain rfl := Except.ok.inj (hanswer.symm.trans hanswer')
    exact absurd rfl hname
  | recorded response' _ hanswer' hid hkinds =>
    obtain rfl := Except.ok.inj (hanswer.symm.trans hanswer')
    exact Exchange.exists_recordedAs hanswer hid hname hkinds

/-! ## Instructions that fail and break down -/

/-- An instruction that fails, and one that breaks down. -/
inductive Brittle where
  | stumble
  | snap

def Brittle.exec : Brittle → Value → State Brittle → Verdict × State Brittle
  | stumble, _, s => (.failed (.text (utf8 "custom failure")), s)
  | snap, _, s => (.crashed (utf8 "custom panic"), s)

instance : Action Brittle := ⟨Brittle.exec⟩

/-- The registry of the two. -/
def Brittle.registry : Registry Brittle :=
  (Registry.empty.push (utf8 "FAIL") stumble).push (utf8 "BOOM") snap

theorem execute_stumble : execute (utf8 "FAIL") false 0 (fun _ => none) 2 Brittle.registry =
    some (.ok
      { steps := 1,
        fault := some { kind := utf8 "internal", message := utf8 "custom failure", pc := -1 } },
      Brittle.registry) := by
  have hassemble : StackMachine.assemble Brittle.registry (utf8 "FAIL") = .ok #[⟨0, 0⟩] := by
    have hlines : textLines (utf8 "FAIL") = [utf8 "FAIL"] := by decide
    rw [StackMachine.assemble, programLines_eq, hlines]
    simp only [assembleLines, assembleLine, split_eq_splitOn (by decide : ascii ' ' < 128)]
    rfl
  unfold execute
  rw [hassemble]
  rfl

theorem execute_snap : execute (utf8 "BOOM") false 0 (fun _ => none) 2 Brittle.registry =
    some (.error (utf8 "custom panic"), Brittle.registry) := by
  have hassemble : StackMachine.assemble Brittle.registry (utf8 "BOOM") = .ok #[⟨1, 0⟩] := by
    have hlines : textLines (utf8 "BOOM") = [utf8 "BOOM"] := by decide
    rw [StackMachine.assemble, programLines_eq, hlines]
    simp only [assembleLines, assembleLine, split_eq_splitOn (by decide : ascii ' ' < 128)]
    rfl
  unfold execute
  rw [hassemble]
  rfl

/-- A service that runs such instructions and records in a store. -/
def brittleService (store : History.Store) : Service Brittle where
  worker := { registry := Brittle.registry }
  store := some store

/-- A request that is served at a time when the clock stands still. -/
def atNoon (id : Bytes) : Occasion where
  elapsed _ := 0
  fuel := 2
  stamp := ⟨id, 43200000000000⟩

theorem deadline_brittleService (store : History.Store) (id : Bytes) :
    (brittleService store).deadline (atNoon id).elapsed = fun _ => none := by
  funext turn
  exact if_neg fun htimeout => absurd htimeout.1 (show ¬ (0 : Int64) < 0 by decide)

/-- A run that fails. -/
def stumbling (id : Bytes) : Exchange where
  request := { program := utf8 "FAIL" }
  occasion := atNoon id
  answer := .ok
    { runId := id, steps := 1,
      fault := some { kind := utf8 "internal", message := utf8 "custom failure", pc := -1 } }

/-- A run that breaks down. -/
def snapping (id : Bytes) : Exchange where
  request := { program := utf8 "BOOM" }
  occasion := atNoon id
  answer := .ok (unanswered (.broke (utf8 "custom panic")))

/-- A run that fails is recorded. -/
theorem run_stumbling {store : History.Store} {id : Bytes} (hadmits : store.Admits id) :
    ∃ run, run.id = id ∧ (brittleService store).run (stumbling id).request (stumbling id).occasion =
      some ((stumbling id).answer, brittleService (store.add run)) := by
  have hexecute := execute_stumble
  rw [← deadline_brittleService store id] at hexecute
  have hne : (stumbling id).request.program ≠ [] := show utf8 "FAIL" ≠ [] by decide
  have hrun := run_of_execute (s := brittleService store) (o := atNoon id) hne rfl hexecute
  exact ⟨_, rfl,
    hrun.trans (congrArg (fun remembered => some (Except.ok remembered.1, remembered.2))
    (remember_eq (s := brittleService store) rfl hadmits))⟩

/-- A run that breaks down is not. -/
theorem run_snapping (store : History.Store) (id : Bytes) :
    (brittleService store).run (snapping id).request (snapping id).occasion =
      some ((snapping id).answer, brittleService store) := by
  have hexecute := execute_snap
  rw [← deadline_brittleService store id] at hexecute
  have hne : (snapping id).request.program ≠ [] := show utf8 "BOOM" ≠ [] by decide
  exact run_of_execute (s := brittleService store) hne rfl hexecute

/-- One after another: a run that fails, one that breaks down, and one that fails, all at
one time. -/
def mishaps : List Exchange :=
  [stumbling (utf8 "run-1"), snapping (utf8 "run-2"), stumbling (utf8 "run-3")]

theorem inSequence_mishaps :
    History.InSequence History.Store.memory.log (mishaps.map (·.occasion.stamp)) where
  named := by decide
  distinct := by decide
  unused _ _ _ hrun := absurd hrun List.not_mem_nil
  ordered := by decide
  later _ _ _ hrun := absurd hrun List.not_mem_nil

theorem recordsIn_brittleService : (brittleService .memory).RecordsIn .memory :=
  ⟨rfl, rfl, by decide⟩

theorem exists_serves_mishaps : ∃ t, Serves (brittleService .memory) mishaps t := by
  obtain ⟨first, hfirst, hrun⟩ := @run_stumbling .memory (utf8 "run-1") ⟨rfl, by decide, rfl⟩
  have hfree : (History.Store.memory.add first).Admits (utf8 "run-3") := by
    refine ⟨rfl, recordsIn_brittleService.access, List.find?_eq_none.mpr fun run hmem => ?_⟩
    obtain rfl := List.mem_singleton.mp hmem
    rw [hfirst]
    decide
  obtain ⟨last, -, hrun'⟩ := run_stumbling hfree
  exact ⟨_, ((Serves.start.step hrun).step (run_snapping _ (utf8 "run-2"))).step hrun'⟩

/-! ## Asking for the history -/

/-- How many runs are shown for a limit. -/
def shownFor (limit : Int64) : Nat := if limit ≤ 0 then 20 else limit.toInt.toNat

omit [Action α] in
/-- The history is a beginning of the runs, newest first. -/
theorem RecordsIn.history_eq {s : Service α} {store : History.Store} (h : s.RecordsIn store)
    (limit : Int64) :
    s.history ⟨limit⟩ =
      .ok { runs :=
        some ((store.log.newestFirst.take (shownFor limit)).map Wire.RunSummary.ofRun) } := by
  rw [history, h.store_eq]
  dsimp only
  rw [History.Store.recent_of_isOpen h.isOpen]
  by_cases hlimit : limit ≤ 0
  · rw [if_pos hlimit, shownFor, if_pos hlimit]
    rfl
  · rw [if_neg hlimit, shownFor, if_neg hlimit, History.Log.recent, if_neg hlimit]

/-- The history agrees with what clients were told, for every sequence of requests to a service that
records its runs, over any instructions. A response that bears a name has one run in the store,
found by that name, which holds the program and what was said of it. The history then shows these
runs, the last first, before all that were there earlier, up to the limit of the request. -/
theorem history_of_serves {s t : Service α} {base : History.Store} {exchanges : List Exchange}
    (hserves : Serves s exchanges t) (hbase : s.RecordsIn base)
    (hstamps : History.InSequence base.log (exchanges.map (·.occasion.stamp))) :
    ∃ store runs, t.store = some store ∧ store.log = base.log ++ runs ∧ (runs.map (·.id)).Nodup ∧
      List.Forall₂ (fun x run => ∃ response, x.answer = .ok response ∧ x.RecordedAs response run)
        (exchanges.filter Exchange.isNamed) runs ∧
      (∀ x ∈ exchanges, ∀ response, x.answer = .ok response → response.runId ≠ [] →
        ∃ run, store.get? none response.runId = .ok (some run) ∧ x.RecordedAs response run ∧
          store.log.filter (·.id = response.runId) = [run]) ∧
      ∀ limit, t.history ⟨limit⟩ =
        .ok
          { runs := some ((runs.reverse.take (shownFor limit) ++
              base.log.newestFirst.take (shownFor limit - runs.length)).map
              Wire.RunSummary.ofRun) } := by
  obtain ⟨hrecords, -⟩ := hserves.recordsIn hbase hstamps
  have hnamed : ∀ x ∈ exchanges, ∀ response, x.answer = .ok response → response.runId ≠ [] →
      ∃ run, x.record? = some run ∧ x.RecordedAs response run :=
    fun _ hx _ hanswer hname => hserves.exists_recordedAs hbase hstamps hx hanswer hname
  have hsequence := hstamps.sublist (Exchange.map_stamp_records exchanges)
  refine ⟨_, exchanges.filterMap Exchange.record?, hrecords.store_eq, rfl, ?_,
    Exchange.forall₂_records hnamed, ?_, ?_⟩
  · simpa [Function.comp_def, History.Run.stamp] using hsequence.distinct
  · intro x hx response hanswer hname
    obtain ⟨run, hrun, hrecorded⟩ := hnamed x hx response hanswer hname
    have hone := hsequence.filter_id_eq (List.mem_filterMap.mpr ⟨x, hx, hrun⟩)
    rw [hrecorded.id] at hone
    refine ⟨run, ?_, hrecorded, hone⟩
    rw [History.Store.get?_of_isOpen hrecords.isOpen, History.Log.get?_eq_head?, hone,
      List.head?_cons]
  · intro limit
    rw [hrecords.history_eq limit, hsequence.newestFirst_append, List.take_append,
      List.length_reverse]

/-- Of the two runs that fail at one time the later is shown alone when one is asked for, and the
one that breaks down in between is not shown. -/
theorem history_of_serves_mishaps :
    ∃ t, Serves (brittleService .memory) mishaps t ∧
      ∃ first last, t.history ⟨1⟩ = .ok { runs := some [.ofRun last] } ∧
        t.history ⟨0⟩ = .ok { runs := some [.ofRun last, .ofRun first] } ∧
        (stumbling (utf8 "run-1")).RecordedAs
          { runId := utf8 "run-1", steps := 1,
            fault := some { kind := utf8 "internal", message := utf8 "custom failure", pc := -1 } }
          first ∧
        last.id = utf8 "run-3" ∧ last.failed = true := by
  obtain ⟨t, hserves⟩ := exists_serves_mishaps
  obtain ⟨store, runs, -, -, -, hruns, -, hhistory⟩ :=
    history_of_serves hserves recordsIn_brittleService inSequence_mishaps
  have hnamed : mishaps.filter Exchange.isNamed =
      [stumbling (utf8 "run-1"), stumbling (utf8 "run-3")] := rfl
  rw [hnamed] at hruns
  obtain ⟨first, rest, ⟨response, hanswer, hfirst⟩, hrest, rfl⟩ :=
    List.forall₂_cons_left_iff.mp hruns
  obtain ⟨last, others, ⟨response', hanswer', hlast⟩, hothers, rfl⟩ :=
    List.forall₂_cons_left_iff.mp hrest
  obtain rfl := List.forall₂_nil_left_iff.mp hothers
  obtain rfl := Except.ok.inj hanswer
  obtain rfl := Except.ok.inj hanswer'
  have hbase : History.Store.memory.log.newestFirst = [] := by
    show ([] : History.Log).reverse.mergeSort History.Log.notOlder = []
    rw [List.reverse_nil, List.mergeSort_nil]
  refine ⟨t, hserves, first, last, ?_, ?_, hfirst, hlast.id,
    hlast.failed_iff.mpr (Option.some_ne_none _)⟩
  · rw [hhistory, hbase]
    rfl
  · rw [hhistory, hbase]
    rfl

/-! ## Runs that are not recorded -/

/-- No instruction breaks down in a sequence of requests. -/
def NoneBreaksDown (s : Service α) (exchanges : List Exchange) : Prop :=
  ∀ before x after u, exchanges = before ++ x :: after → Serves s before u →
    ∀ message, ¬ u.BreaksDown x message

/-- A worker that was not stopped answers with a response that bears a name, unless an instruction
breaks down. -/
theorem Serves.isNamed_eq {s t : Service α} {base : History.Store} {exchanges : List Exchange}
    (h : Serves s exchanges t) (hbase : s.RecordsIn base) (hrunning : s.worker.stopped = false)
    (hstamps : History.InSequence base.log (exchanges.map (·.occasion.stamp)))
    (hsound : s.NoneBreaksDown exchanges) {x : Exchange} (hx : x ∈ exchanges) :
    x.isNamed = x.response?.isSome := by
  obtain ⟨before, after, rfl⟩ := List.append_of_mem hx
  obtain ⟨u, v, store, hbefore, -, -, hstopped, houtcome⟩ := h.outcome hbase hstamps
  cases houtcome with
  | refused refusal hanswer => simp [Exchange.isNamed, Exchange.response?, hanswer, Except.toOption]
  | stopped hstopped' _ => simp [hstopped, hrunning] at hstopped'
  | broke message hbreaks _ => exact absurd hbreaks (hsound before x after u rfl hbefore message)
  | recorded response _ hanswer hid _ =>
    have hname : x.occasion.stamp.id ≠ [] := hstamps.named _ (List.mem_map_of_mem hx)
    simp [Exchange.isNamed, Exchange.response?, hanswer, Except.toOption, hid, hname]

/-- A service whose worker was not stopped answers every run, over any instructions, in one of two
ways. Either the store has one more run, and the response bears its name; or an instruction broke
down, the response says so and bears no name, and the store is as before. So there are as many runs
as responses that bear a name, and as many as there are responses if no instruction breaks down. -/
theorem count_of_serves {s t : Service α} {base : History.Store} {exchanges : List Exchange}
    (hserves : Serves s exchanges t) (hbase : s.RecordsIn base)
    (hrunning : s.worker.stopped = false)
    (hstamps : History.InSequence base.log (exchanges.map (·.occasion.stamp))) :
    (∀ before x after response, exchanges = before ++ x :: after → x.answer = .ok response →
      ∃ u v store, Serves s before u ∧ u.run x.request x.occasion = some (x.answer, v) ∧
        u.store = some store ∧
        ((∀ message, ¬ u.BreaksDown x message) ∧
            (∃ run, response.runId ≠ [] ∧ run.id = response.runId ∧
              v.store = some (store.add run)) ∨
          ∃ message, u.BreaksDown x message ∧ response = unanswered (.broke message) ∧
            response.runId = [] ∧
            v.store = some store)) ∧
    ∃ store, t.store = some store ∧
      store.count none = .ok (base.log.length + exchanges.countP Exchange.isNamed) ∧
      (s.NoneBreaksDown exchanges →
        store.count none = .ok (base.log.length + exchanges.countP (·.response?.isSome))) := by
  refine ⟨?_, ?_⟩
  · rintro before x after response rfl hanswer
    obtain ⟨u, v, store, hbefore, hrun, hstore, hstopped, houtcome⟩ := hserves.outcome hbase hstamps
    refine ⟨u, v, store, hbefore, hrun, hstore, ?_⟩
    cases houtcome with
    | refused refusal hanswer' => cases hanswer.symm.trans hanswer'
    | stopped hstopped' _ => simp [hstopped, hrunning] at hstopped'
    | broke message hbreaks hanswer' hkept =>
      obtain rfl := Except.ok.inj (hanswer.symm.trans hanswer')
      exact .inr ⟨message, hbreaks, rfl, rfl, hkept⟩
    | recorded response' hends hanswer' hid _ hadded =>
      obtain rfl := Except.ok.inj (hanswer.symm.trans hanswer')
      have hname : response.runId ≠ [] := hid ▸ hstamps.named _ (List.mem_map_of_mem (by simp))
      exact .inl ⟨hends, _, hname, hid.symm, hadded⟩
  · obtain ⟨hrecords, -⟩ := hserves.recordsIn hbase hstamps
    have hcount := History.Store.count_of_isOpen hrecords.isOpen
    rw [List.length_append, Exchange.length_records] at hcount
    refine ⟨_, hrecords.store_eq, hcount, fun hsound => ?_⟩
    have hsame : exchanges.countP Exchange.isNamed = exchanges.countP (·.response?.isSome) :=
      List.countP_congr fun x hx => by rw [hserves.isNamed_eq hbase hrunning hstamps hsound hx]
    rw [hcount, hsame]

/-- Three responses, and two runs in the store: the second response tells of a breakdown. -/
theorem count_of_serves_mishaps :
    ∃ t store, Serves (brittleService .memory) mishaps t ∧ t.store = some store ∧
      store.count none = .ok 2 ∧
      mishaps.countP (·.response?.isSome) = 3 := by
  obtain ⟨t, hserves⟩ := exists_serves_mishaps
  obtain ⟨-, store, hstore, hcount, -⟩ :=
    count_of_serves hserves recordsIn_brittleService rfl inSequence_mishaps
  exact ⟨t, store, hserves, hstore, hcount, rfl⟩

/-- A run that breaks down is answered, but the response bears no name and nothing is recorded. -/
theorem store_eq_of_breaksDown :
    let s := brittleService .memory
    let x := snapping (utf8 "run-1")
    s.worker.stopped = false ∧ s.RecordsIn .memory ∧
      ∃ response t store, s.run x.request x.occasion = some (.ok response, t) ∧
        response.runId = [] ∧
        t.store = some store ∧ store.count none = .ok 0 :=
  ⟨rfl, recordsIn_brittleService, _, _, _, run_snapping .memory (utf8 "run-1"), rfl, rfl, rfl⟩

end Service

end StackMachine
