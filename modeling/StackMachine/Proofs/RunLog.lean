import StackMachine.Proofs.Recording
import StackMachine.Time.Instant

/-!
# The run store as a log with keys

A store is handed one run after another and refuses those whose name is taken. What it has become
after any number of them is said by `Grows`: whatever was in it is still there and in front, it has
a run of every name that was handed over and of no other, and it has grown by one for every run that
it has not refused. One run makes it grow like that (`Writable.submit`), and so does a sequence of
them (`Writable.submitAll`).

For a store that was just opened this decides, from the names alone, what becomes of each run of a
sequence (`get_count_submitAll`).
-/

namespace StackMachine

open Text

/-! ## Nanoseconds -/

namespace Instant

/-- An instant is so many nanoseconds after the start of 1970, or before it if the number is
negative. -/
def IsAt (t : Instant) (ns : Int64) : Prop :=
  t.nsec < nanosPerSecond ∧ t.sec.toInt * nanosPerSecond + t.nsec = ns.toInt

/-- An instant is counted in nanoseconds, where they fit in a word. -/
theorem IsAt.toNanos_eq {t : Instant} {ns : Int64} (h : t.IsAt ns) : t.toNanos = ns := by
  have hcount : t.toNanos = Int64.ofInt (t.sec.toInt * nanosPerSecond + t.nsec) := by
    rw [Int64.ofInt_add, Int64.ofInt_mul, Int64.ofInt_toInt]
    rfl
  rw [hcount, h.2, Int64.ofInt_toInt]

/-- An instant is found again from its nanoseconds. -/
theorem IsAt.ofNanos_eq {t : Instant} {ns : Int64} (h : t.IsAt ns) : ofNanos ns = t := by
  obtain ⟨hnsec, hns⟩ := h
  have hsec : ns.toInt / nanosPerSecond = t.sec.toInt := by
    rw [nanosPerSecond] at hnsec hns ⊢
    omega
  have hrest : (ns.toInt % nanosPerSecond).toNat = t.nsec := by
    rw [nanosPerSecond] at hnsec hns ⊢
    omega
  rw [ofNanos, ofUnix, hsec, hrest, Int64.ofInt_toInt, Int64.zero_add]

end Instant

namespace History

/-! ## Handing over runs -/

/-- A run that is handed over for recording, and what the surroundings contribute. -/
structure Submission where
  draft : Draft
  stamp : Stamp

/-- The name that the run is to have: the one that it was given, or else a new one. -/
def Submission.id (c : Submission) : Bytes := if c.draft.id = [] then c.stamp.id else c.draft.id

/-- The run is as it was handed over, with the name, the time and the digest filled in where they
were missing. -/
structure Submission.Becomes (c : Submission) (run : Run) : Prop where
  id : run.id = c.id
  /-- An instant that was given is kept as its nanoseconds, where they fit in a word. -/
  createdAt : ∀ t ns, c.draft.createdAt = some t → t.IsAt ns → run.createdAt = ns
  /-- It is found again, to the nanosecond. -/
  instant : ∀ t ns, c.draft.createdAt = some t → t.IsAt ns → run.time = t
  now : c.draft.createdAt = none → run.createdAt = c.stamp.now
  hash : c.draft.programHash ≠ [] → run.programHash = c.draft.programHash
  computedHash : c.draft.programHash = [] → run.programHash = History.programHash c.draft.program
  program : run.program = c.draft.program
  result : run.result = c.draft.result
  output : run.output = c.draft.output
  faultKind : run.faultKind = c.draft.faultKind
  faultMessage : run.faultMessage = c.draft.faultMessage
  steps : run.steps = c.draft.steps

theorem Submission.becomes_complete (c : Submission) : c.Becomes (c.draft.complete c.stamp) where
  id := rfl
  createdAt t ns hgiven ht := by
    rw [Draft.complete, hgiven, Option.map_some, Option.getD_some, ht.toNanos_eq]
  instant t ns hgiven ht := by
    rw [Run.time, Draft.complete, hgiven, Option.map_some, Option.getD_some, ht.toNanos_eq,
      ht.ofNanos_eq]
  now hmissing := by rw [Draft.complete, hmissing, Option.map_none, Option.getD_none]
  hash hgiven := if_neg hgiven
  computedHash hmissing := if_pos hmissing
  program := rfl
  result := rfl
  output := rfl
  faultKind := rfl
  faultMessage := rfl
  steps := rfl

theorem Log.get?_eq_none_iff {log : Log} {id : Bytes} :
    log.get? id = none ↔ id ∉ log.map (·.id) := by
  simp [get?]

namespace Store

/-- The store is open and may be changed. -/
structure Writable (s : Store) : Prop where
  isOpen : s.isOpen = true
  access : s.place.access ≠ .readOnly

/-- The store was just opened and nothing has been recorded in it. -/
structure Fresh (s : Store) : Prop extends s.Writable where
  log : s.log = []

/-- Hands over a run. The store says under which name it was recorded, or stays as it is. -/
def submit (s : Store) (c : Submission) : Except StoreError Bytes × Store :=
  match s.record none c.draft c.stamp with
  | .ok (id, s') => (.ok id, s')
  | .error e => (.error e, s)

/-- Hands over one run after another. -/
def submitAll : Store → List Submission → List (Except StoreError Bytes) × Store
  | s, [] => ([], s)
  | s, c :: calls =>
    ((s.submit c).1 :: ((s.submit c).2.submitAll calls).1, ((s.submit c).2.submitAll calls).2)

/-- Two stores answer every question alike. -/
structure AnswersLike (s t : Store) : Prop where
  get? : ∀ interrupt id, s.get? interrupt id = t.get? interrupt id
  recent : ∀ interrupt limit, s.recent interrupt limit = t.recent interrupt limit
  count : ∀ interrupt, s.count interrupt = t.count interrupt

variable {s t u : Store} {c : Submission} {calls calls' : List Submission}
  {answers answers' : List (Except StoreError Bytes)}

/-- A run that is added under a name that was free is found under it. -/
theorem get?_add {run : Run} (h : run.id ∉ s.log.map (·.id)) :
    (s.add run).log.get? run.id = some run := by
  have hfree := Log.get?_eq_none_iff.mpr h
  rw [Log.get?] at hfree
  rw [add, Log.get?, List.find?_append, hfree, Option.none_or]
  exact List.find?_cons_of_pos (decide_eq_true rfl)

/-- A run whose name is free is recorded. -/
theorem Writable.submit_of_free (h : s.Writable) (hfree : c.id ∉ s.log.map (·.id)) :
    s.submit c = (.ok c.id, s.add (c.draft.complete c.stamp)) := by
  have hadmits : s.Admits (c.draft.complete c.stamp).id :=
    ⟨h.isOpen, h.access, Log.get?_eq_none_iff.mpr hfree⟩
  rw [submit, record_eq_ok_iff.mpr ⟨hadmits, rfl, rfl⟩]
  rfl

/-- A run whose name is taken is refused. -/
theorem Writable.submit_of_taken (h : s.Writable) (htaken : c.id ∈ s.log.map (·.id)) :
    s.submit c = (.error .duplicate, s) := by
  obtain ⟨run, hrun⟩ : ∃ run, s.log.get? (c.draft.complete c.stamp).id = some run := by
    rw [← Option.ne_none_iff_exists']
    exact fun hnone => Log.get?_eq_none_iff.mp hnone htaken
  have hrecord : s.record none c.draft c.stamp = .error .duplicate := by
    rw [record, available_of_isOpen h.isOpen]
    dsimp only [bind, Except.bind]
    rw [if_neg h.access, hrun]
  rw [submit, hrecord]

theorem submitAll_append (s : Store) (calls calls' : List Submission) :
    s.submitAll (calls ++ calls') =
      ((s.submitAll calls).1 ++ ((s.submitAll calls).2.submitAll calls').1,
        ((s.submitAll calls).2.submitAll calls').2) := by
  induction calls generalizing s with
  | nil => rfl
  | cons c calls ih => rw [List.cons_append, submitAll, ih, submitAll, List.cons_append]

theorem length_submitAll (s : Store) (calls : List Submission) :
    (s.submitAll calls).1.length = calls.length := by
  induction calls generalizing s with
  | nil => rfl
  | cons c calls ih => rw [submitAll, List.length_cons, ih, List.length_cons]

/-- What a sequence of runs comes to, seen from one of them. -/
theorem submitAll_middle (s : Store) (before : List Submission) (c : Submission)
    (after : List Submission) :
    (s.submitAll (before ++ c :: after)).1[before.length]? =
      some ((s.submitAll before).2.submit c).1 ∧
      (s.submitAll (before ++ c :: after)).2 =
        (((s.submitAll before).2.submit c).2.submitAll after).2 := by
  rw [submitAll_append, submitAll]
  refine ⟨?_, rfl⟩
  dsimp only
  rw [← length_submitAll s before, List.getElem?_append_right (Nat.le_refl _), Nat.sub_self,
    List.getElem?_cons_zero]

/-! ## Growth -/

/-- What a store that is handed some runs has become, and what it has answered. -/
structure Grows (s : Store) (calls : List Submission) (answers : List (Except StoreError Bytes))
    (t : Store) : Prop where
  writable : t.Writable
  /-- What was recorded stays, and in front. -/
  keeps : s.log <+: t.log
  /-- There are runs of exactly the names that were there or were handed over. -/
  mem_iff : ∀ id, id ∈ t.log.map (·.id) ↔ id ∈ s.log.map (·.id) ∨ id ∈ calls.map (·.id)
  /-- There is one more run for every one that was not refused. -/
  length_eq : t.log.length = s.log.length + answers.countP (·.isOk)

theorem Grows.refl (h : s.Writable) : Grows s [] [] s where
  writable := h
  keeps := List.prefix_refl _
  mem_iff id := by simp
  length_eq := rfl

theorem Grows.trans (h : Grows s calls answers t) (h' : Grows t calls' answers' u) :
    Grows s (calls ++ calls') (answers ++ answers') u where
  writable := h'.writable
  keeps := h.keeps.trans h'.keeps
  mem_iff id := by rw [h'.mem_iff, h.mem_iff, List.map_append, List.mem_append, or_assoc]
  length_eq := by rw [h'.length_eq, h.length_eq, List.countP_append, Nat.add_assoc]

theorem Writable.submit (h : s.Writable) (c : Submission) :
    Grows s [c] [(s.submit c).1] (s.submit c).2 := by
  by_cases htaken : c.id ∈ s.log.map (·.id)
  · rw [h.submit_of_taken htaken]
    refine ⟨h, List.prefix_refl _, fun id => ?_, rfl⟩
    constructor
    · exact .inl
    · rintro (hold | hnew)
      · exact hold
      · rw [List.map_singleton, List.mem_singleton] at hnew
        rwa [hnew]
  · rw [h.submit_of_free htaken]
    refine ⟨⟨h.isOpen, h.access⟩, List.prefix_append _ _, fun id => ?_, List.length_append⟩
    show id ∈ (s.log ++ [c.draft.complete c.stamp]).map (·.id) ↔ _
    rw [List.map_append, List.mem_append]
    rfl

/-- What one run after another makes of a store. -/
theorem Writable.submitAll (h : s.Writable) (calls : List Submission) :
    Grows s calls (s.submitAll calls).1 (s.submitAll calls).2 := by
  induction calls generalizing s with
  | nil => exact .refl h
  | cons c calls ih => exact (h.submit c).trans (ih (h.submit c).writable)

/-- A run that is found is found in the store that has grown. -/
theorem Grows.get?_eq (h : Grows s calls answers t) {id : Bytes} {run : Run}
    (hrun : s.log.get? id = some run) :
    t.get? none id = .ok (some run) := by
  obtain ⟨rest, hrest⟩ := h.keeps
  rw [get?_of_isOpen h.writable.isOpen, ← hrest, Log.get?, List.find?_append]
  rw [Log.get?] at hrun
  rw [hrun, Option.some_or]

/-! ## A store that was just opened -/

/-- The store is a **log with keys**. Runs are handed over, one after another, to a store that was
just opened; one of them comes after those of `before` and is followed by those of `after`. Then

* if none before it has its name, the answer is its name, and from then on the store has it under
  that name, as it was handed over;
* if one before it has its name, it is refused, and the store is what it would be without it;
* nothing is found under a name that no run was to have;
* the store counts as many runs as were not refused. -/
theorem get_count_submitAll {base : Store} (h : base.Fresh) (before : List Submission)
    (c : Submission) (after : List Submission) :
    let answers := (base.submitAll (before ++ c :: after)).1
    let store := (base.submitAll (before ++ c :: after)).2
    (c.id ∉ before.map (·.id) →
      answers[before.length]? = some (.ok c.id) ∧
      ∃ run, store.get? none c.id = .ok (some run) ∧ c.Becomes run) ∧
    (c.id ∈ before.map (·.id) →
      answers[before.length]? = some (.error .duplicate) ∧
      store.AnswersLike (base.submitAll (before ++ after)).2) ∧
    (∀ id ∉ (before ++ c :: after).map (·.id), store.get? none id = .ok none) ∧
    store.count none = .ok (answers.countP (·.isOk)) := by
  intro answers store
  have hbefore := h.toWritable.submitAll before
  have hall : Grows base (before ++ c :: after) answers store := h.toWritable.submitAll _
  obtain ⟨hanswer, hstore⟩ : answers[before.length]? = some ((base.submitAll before).2.submit c).1 ∧
      store = (((base.submitAll before).2.submit c).2.submitAll after).2 :=
    base.submitAll_middle before c after
  -- nothing was there, so the names that are taken are those of the runs before
  have htaken : ∀ id, id ∈ (base.submitAll before).2.log.map (·.id) ↔ id ∈ before.map (·.id) := by
    intro id
    rw [hbefore.mem_iff, h.log, List.map_nil, or_iff_right List.not_mem_nil]
  refine ⟨fun hnew => ?_, fun hold => ?_, fun id hid => ?_, ?_⟩
  · have hfree := mt (htaken c.id).mp hnew
    have hafter := (hbefore.writable.submit c).writable.submitAll after
    rw [hbefore.writable.submit_of_free hfree] at hanswer hstore hafter
    refine ⟨hanswer, c.draft.complete c.stamp, ?_, c.becomes_complete⟩
    rw [hstore]
    exact hafter.get?_eq (get?_add hfree)
  · have hsubmit := hbefore.writable.submit_of_taken ((htaken c.id).mpr hold)
    rw [hsubmit] at hanswer hstore
    have hsame : store = (base.submitAll (before ++ after)).2 := by rw [submitAll_append, ← hstore]
    rw [hsame]
    exact ⟨hanswer, fun _ _ => rfl, fun _ _ => rfl, fun _ => rfl⟩
  · have hnone : id ∉ store.log.map (·.id) := by
      rw [hall.mem_iff, h.log, List.map_nil, or_iff_right List.not_mem_nil]
      exact hid
    rw [get?_of_isOpen hall.writable.isOpen, Log.get?_eq_none_iff.mpr hnone]
  · rw [count_of_isOpen hall.writable.isOpen, hall.length_eq, h.log, List.length_nil, Nat.zero_add]

/-- A run with a name and a time of its own, one without a name, and another with the name of the
first. -/
def threeRuns : List Submission :=
  [⟨{ id := utf8 "a", createdAt := some ⟨-1, 999999999⟩, program := utf8 "EXIT", steps := 1 },
    ⟨utf8 "u", 7⟩⟩,
    ⟨{ program := utf8 "POP", faultKind := utf8 "vm_stackfail" }, ⟨utf8 "v", 8⟩⟩,
    ⟨{ id := utf8 "a", program := utf8 "ADD" }, ⟨utf8 "w", 9⟩⟩]

/-- The first two are recorded, and the third, which is refused, does not touch the first: this was
a nanosecond before 1970 and still is. -/
theorem get_count_submitAll_duplicate :
    Store.memory.Fresh ∧
    let answers := (Store.memory.submitAll threeRuns).1
    let store := (Store.memory.submitAll threeRuns).2
    answers = [.ok (utf8 "a"), .ok (utf8 "v"), .error .duplicate] ∧
    (∃ run, store.get? none (utf8 "a") = .ok (some run) ∧ run.program = utf8 "EXIT" ∧
      run.time = ⟨-1, 999999999⟩ ∧ run.createdAt = -1 ∧
      run.programHash = programHash (utf8 "EXIT")) ∧
    store.get? none (utf8 "w") = .ok none ∧ store.count none = .ok 2 := by
  have hfresh : Store.memory.Fresh := ⟨⟨rfl, by decide⟩, rfl⟩
  refine ⟨hfresh, ?_⟩
  intro answers store
  have hanswers : answers = [.ok (utf8 "a"), .ok (utf8 "v"), .error .duplicate] := rfl
  obtain ⟨hfirst, -, hnever, hcount⟩ :=
    get_count_submitAll hfresh [] threeRuns[0] (threeRuns.drop 1)
  obtain ⟨-, run, hrun, hbecomes⟩ := hfirst (by decide)
  have hat : Instant.IsAt ⟨-1, 999999999⟩ (-1) := ⟨by decide, by decide⟩
  refine ⟨hanswers, ⟨run, hrun, hbecomes.program, hbecomes.instant _ _ rfl hat,
    hbecomes.createdAt _ _ rfl hat, hbecomes.computedHash rfl⟩, hnever _ (by decide), ?_⟩
  · exact hcount

end Store

end History

end StackMachine
