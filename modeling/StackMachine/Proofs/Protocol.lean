import StackMachine.Service.Worker
import Mathlib.Data.List.Infix
import Mathlib.Data.List.Nodup
import Mathlib.Logic.Function.Basic

/-!
# The protocol of a worker

Any number of callers share a worker. A call for a job tests whether the worker was stopped, puts
the job into a queue of sixty-four places and waits for its answer; while it waits for a place or
for its answer it gives up when the worker is stopped. A loop takes one job after another out of the
queue, carries it out and hands the answer over. To stop the worker is a test and a closing: two
steps, and others may come between them.

A `Config` is a state of all parties, a `Step` one atomic step of one of them, and a `Run` any
interleaving of steps. The jobs are carried out by `Worker.perform`. A job is taken up at most once
(`Run.nodup_sent`), so what it reads from its surroundings may be counted as part of it, and jobs
are functions of the registry; one that never comes to an end has no outcome.

The order of things is read off the events: which jobs were sent, taken up, finished and delivered.
`Accounted` says how these lists hang together with the state, and `Answered` where an answer comes
from.
-/

namespace StackMachine

/-- A job of a worker: an answer or the message it breaks down with, and the registry it leaves. -/
abbrev Job (α β : Type) := Registry α → Option (Except Bytes β × Registry α)

namespace Worker

variable {ι α β : Type}

/-- A worker that was not stopped reports what the job comes to. -/
theorem perform_eq_some_iff {r : Registry α} {job : Job α β} {a : Except WorkerError β}
    {w : Worker α} :
    perform ⟨r, false⟩ job = some (a, w) ↔
      ∃ answer r', job r = some (answer, r') ∧ a = answer.mapError .broke ∧ w = ⟨r', false⟩ := by
  cases h : job r with
  | none => simp [perform, h]
  | some outcome =>
    obtain ⟨answer, r'⟩ := outcome
    simp [perform, h, eq_comm]

/-- The worker once it has carried out the jobs of a list, one after another. -/
def performAll (jobs : ι → Job α β) (w : Worker α) (ks : List ι) : Option (Worker α) :=
  ks.foldlM (fun w k => (w.perform (jobs k)).map Prod.snd) w

theorem performAll_append (jobs : ι → Job α β) (w : Worker α) (ks ls : List ι) :
    performAll jobs w (ks ++ ls) = (performAll jobs w ks).bind fun w => performAll jobs w ls := by
  simp [performAll, List.foldlM_append]

theorem performAll_singleton (jobs : ι → Job α β) (w : Worker α) (k : ι) :
    performAll jobs w [k] = (w.perform (jobs k)).map Prod.snd := by
  simp [performAll]

/-- What each job keeps of a registry, all of them keep. -/
theorem performAll_keeps {jobs : ι → Job α β} {P : Registry α → Prop}
    (hkeeps : ∀ k r answer r', P r → jobs k r = some (answer, r') → P r') {ks : List ι}
    {r r' : Registry α} (h : performAll jobs ⟨r, false⟩ ks = some ⟨r', false⟩) (hr : P r) :
    P r' := by
  induction ks generalizing r with
  | nil =>
    obtain rfl : r = r' := by simpa [performAll] using h
    exact hr
  | cons k ks ih =>
    rw [performAll, List.foldlM_cons, Option.bind_eq_bind, Option.bind_eq_some_iff] at h
    obtain ⟨w, hfirst, hrest⟩ := h
    obtain ⟨⟨a, w'⟩, hperform, rfl⟩ := Option.map_eq_some_iff.mp hfirst
    obtain ⟨answer, r'', hjob, -, rfl⟩ := perform_eq_some_iff.mp hperform
    exact ih hrest (hkeeps k r answer r'' hr hjob)

end Worker

namespace Protocol

variable {ι σ α β : Type}

/-! ## States and steps -/

/-- How far a call for a job has got. -/
inductive Call (β : Type) where
  | unmade
  /-- About to test whether the worker was stopped. -/
  | asking
  | sending
  | waiting
  | returned (answer : Except WorkerError β)

/-- What the loop is at. -/
inductive Loop (ι β : Type) where
  | idle
  | working (k : ι)
  | delivering (k : ι) (answer : Except WorkerError β)
  | ended

/-- How far a call to stop the worker has got. -/
inductive Stop where
  | unmade
  /-- About to test whether the worker was stopped already. -/
  | asking
  | closing
  | returned
  /-- The worker was closed when it came to closing it. -/
  | broke

/-- A worker and its callers: calls for jobs are numbered by `ι`, calls to stop by `σ`. -/
structure Config (ι σ α β : Type) where
  registry : Registry α
  queue : List ι := []
  quit : Bool := false
  loop : Loop ι β := .idle
  /-- The answers that were delivered and not yet received. -/
  results : ι → Option (Except WorkerError β) := fun _ => none
  calls : ι → Call β := fun _ => .unmade
  stops : σ → Stop := fun _ => .unmade

/-- A worker over a registry before anyone has called. -/
def Config.start (r : Registry α) : Config ι σ α β := { registry := r }

/-- How many jobs the queue holds. -/
def capacity : Nat := 64

/-- What happens in a step, and to which call. -/
inductive Event (ι σ : Type) where
  | made (k : ι)
  | refused (k : ι)
  | passed (k : ι)
  | sent (k : ι)
  | gaveUp (k : ι)
  | received (k : ι)
  | taken (k : ι)
  | finished (k : ι)
  | delivered (k : ι)
  | ended
  | stopMade (j : σ)
  | stopSaw (j : σ)
  | stopPassed (j : σ)
  | closed (j : σ)
  | stopBroke (j : σ)

section Steps

variable [DecidableEq ι] [DecidableEq σ]

/-- The same state but for one call. -/
def Config.setCall (c : Config ι σ α β) (k : ι) (call : Call β) : Config ι σ α β :=
  { c with calls := Function.update c.calls k call }

/-- The same state but for one call to stop. -/
def Config.setStop (c : Config ι σ α β) (j : σ) (stop : Stop) : Config ι σ α β :=
  { c with stops := Function.update c.stops j stop }

omit [DecidableEq σ] in
@[simp] theorem Config.calls_setCall_self (c : Config ι σ α β) (k : ι) (call : Call β) :
    (c.setCall k call).calls k = call := Function.update_self ..

omit [DecidableEq σ] in
theorem Config.calls_setCall_of_ne (c : Config ι σ α β) {k k' : ι} (h : k ≠ k') (call : Call β) :
    (c.setCall k' call).calls k = c.calls k := Function.update_of_ne h ..

omit [DecidableEq ι] in
@[simp] theorem Config.stops_setStop_self (c : Config ι σ α β) (j : σ) (stop : Stop) :
    (c.setStop j stop).stops j = stop := Function.update_self ..

omit [DecidableEq ι] in
theorem Config.stops_setStop_of_ne (c : Config ι σ α β) {j j' : σ} (h : j ≠ j') (stop : Stop) :
    (c.setStop j' stop).stops j = c.stops j := Function.update_of_ne h ..

/-- One atomic step. Where several steps are open to a party, any of them may come. -/
inductive Step (jobs : ι → Job α β) (c : Config ι σ α β) : Event ι σ → Config ι σ α β → Prop where
  | made {k} (hcall : c.calls k = .unmade) : Step jobs c (.made k) (c.setCall k .asking)
  | refused {k} (hcall : c.calls k = .asking) (hquit : c.quit = true) :
      Step jobs c (.refused k) (c.setCall k (.returned (.error .stopped)))
  | passed {k} (hcall : c.calls k = .asking) (hquit : c.quit = false) :
      Step jobs c (.passed k) (c.setCall k .sending)
  | sent {k} (hcall : c.calls k = .sending) (hroom : c.queue.length < capacity) :
      Step jobs c (.sent k) { c.setCall k .waiting with queue := c.queue ++ [k] }
  | gaveUp {k} (hcall : c.calls k = .sending ∨ c.calls k = .waiting) (hquit : c.quit = true) :
      Step jobs c (.gaveUp k) (c.setCall k (.returned (.error .stopped)))
  | received {k a} (hcall : c.calls k = .waiting) (hresult : c.results k = some a) :
      Step jobs c (.received k)
        { c.setCall k (.returned a) with results := Function.update c.results k none }
  | taken {k rest} (hloop : c.loop = .idle) (hqueue : c.queue = k :: rest) :
      Step jobs c (.taken k) { c with loop := .working k, queue := rest }
  | finished {k a w} (hloop : c.loop = .working k)
      (hperform : Worker.perform ⟨c.registry, false⟩ (jobs k) = some (a, w)) :
      Step jobs c (.finished k) { c with loop := .delivering k a, registry := w.registry }
  | delivered {k a} (hloop : c.loop = .delivering k a) (hroom : c.results k = none) :
      Step jobs c (.delivered k)
        { c with loop := .idle, results := Function.update c.results k (some a) }
  | ended (hloop : c.loop = .idle) (hquit : c.quit = true) :
      Step jobs c .ended { c with loop := .ended }
  | stopMade {j} (hstop : c.stops j = .unmade) : Step jobs c (.stopMade j) (c.setStop j .asking)
  | stopSaw {j} (hstop : c.stops j = .asking) (hquit : c.quit = true) :
      Step jobs c (.stopSaw j) (c.setStop j .returned)
  | stopPassed {j} (hstop : c.stops j = .asking) (hquit : c.quit = false) :
      Step jobs c (.stopPassed j) (c.setStop j .closing)
  | closed {j} (hstop : c.stops j = .closing) (hquit : c.quit = false) :
      Step jobs c (.closed j) { c.setStop j .returned with quit := true }
  | stopBroke {j} (hstop : c.stops j = .closing) (hquit : c.quit = true) :
      Step jobs c (.stopBroke j) (c.setStop j .broke)

/-- Steps of all parties, in any order. -/
inductive Run (jobs : ι → Job α β) (c : Config ι σ α β) :
    List (Event ι σ) → Config ι σ α β → Prop where
  | start : Run jobs c [] c
  | step {events d e d'} (hrun : Run jobs c events d) (hstep : Step jobs d e d') :
      Run jobs c (events ++ [e]) d'

theorem Run.trans {jobs : ι → Job α β} {c d d' : Config ι σ α β} {before after : List (Event ι σ)}
    (h : Run jobs c before d) (h' : Run jobs d after d') : Run jobs c (before ++ after) d' := by
  induction h' with
  | start => rwa [List.append_nil]
  | step _ hstep ih =>
    rw [← List.append_assoc]
    exact ih.step hstep

end Steps

/-! ## What the events tell -/

/-- The jobs that entered the queue, in the order in which they did. -/
def sent (events : List (Event ι σ)) : List ι :=
  events.filterMap fun
    | .sent k => some k
    | _ => none

/-- The jobs that the loop took up. -/
def taken (events : List (Event ι σ)) : List ι :=
  events.filterMap fun
    | .taken k => some k
    | _ => none

/-- The jobs that came to an end. -/
def finished (events : List (Event ι σ)) : List ι :=
  events.filterMap fun
    | .finished k => some k
    | _ => none

/-- The jobs whose answers the loop has handed over. -/
def delivered (events : List (Event ι σ)) : List ι :=
  events.filterMap fun
    | .delivered k => some k
    | _ => none

@[simp] theorem sent_append (before after : List (Event ι σ)) :
    sent (before ++ after) = sent before ++ sent after := List.filterMap_append

@[simp] theorem taken_append (before after : List (Event ι σ)) :
    taken (before ++ after) = taken before ++ taken after := List.filterMap_append

@[simp] theorem finished_append (before after : List (Event ι σ)) :
    finished (before ++ after) = finished before ++ finished after := List.filterMap_append

@[simp] theorem delivered_append (before after : List (Event ι σ)) :
    delivered (before ++ after) = delivered before ++ delivered after := List.filterMap_append

/-- The job in hand. -/
def Loop.inHand : Loop ι β → List ι
  | .working k => [k]
  | _ => []

/-- The job whose answer is to be handed over. -/
def Loop.outgoing : Loop ι β → List ι
  | .delivering k _ => [k]
  | _ => []

/-- The events of a run account for its state: what was sent was taken up or waits in the queue,
what was taken up is finished or in hand, what is finished is delivered or about to be, and the
registry is what the finished jobs, carried out one after another, have made of it. -/
structure Accounted (jobs : ι → Job α β) (r : Registry α) (events : List (Event ι σ))
    (c : Config ι σ α β) : Prop where
  sent_eq : sent events = taken events ++ c.queue
  taken_eq : taken events = finished events ++ c.loop.inHand
  finished_eq : finished events = delivered events ++ c.loop.outgoing
  performAll_eq : Worker.performAll jobs ⟨r, false⟩ (finished events) = some ⟨c.registry, false⟩

/-- An answer is what the job of its call comes to, carried out on what the jobs before it have
left. -/
def Answered (jobs : ι → Job α β) (r : Registry α) (done : List ι) (k : ι)
    (a : Except WorkerError β) : Prop :=
  ∃ before after w w', done = before ++ k :: after ∧
    Worker.performAll jobs ⟨r, false⟩ before = some ⟨w, false⟩ ∧
    Worker.perform ⟨w, false⟩ (jobs k) = some (a, w')

theorem Answered.append {jobs : ι → Job α β} {r : Registry α} {done : List ι} {k : ι}
    {a : Except WorkerError β} (h : Answered jobs r done k a) (later : List ι) :
    Answered jobs r (done ++ later) k a := by
  obtain ⟨before, after, w, w', rfl, hbefore, hperform⟩ := h
  exact ⟨before, after ++ later, w, w', by simp, hbefore, hperform⟩

theorem Answered.mem {jobs : ι → Job α β} {r : Registry α} {done : List ι} {k : ι}
    {a : Except WorkerError β} (h : Answered jobs r done k a) : k ∈ done := by
  obtain ⟨before, after, w, w', rfl, -, -⟩ := h
  simp

/-! ## Accounts -/

section Accounts

variable {jobs : ι → Job α β} {r : Registry α} {events : List (Event ι σ)} {c d : Config ι σ α β}
  {e : Event ι σ}

theorem Accounted.start : Accounted jobs r ([] : List (Event ι σ)) (.start r) :=
  ⟨rfl, rfl, rfl, rfl⟩

/-- What a step adds to the four lists must be what it takes from one place and puts into
the next. -/
theorem Accounted.extend (h : Accounted jobs r events c)
    (hqueue : c.queue ++ sent [e] = taken [e] ++ d.queue)
    (hhand : c.loop.inHand ++ taken [e] = finished [e] ++ d.loop.inHand)
    (hout : c.loop.outgoing ++ finished [e] = delivered [e] ++ d.loop.outgoing)
    (hperformAll : Worker.performAll jobs ⟨c.registry, false⟩ (finished [e]) =
      some ⟨d.registry, false⟩) :
    Accounted jobs r (events ++ [e]) d := by
  constructor
  · rw [sent_append, taken_append, h.sent_eq, List.append_assoc, hqueue, List.append_assoc]
  · rw [taken_append, finished_append, h.taken_eq, List.append_assoc, hhand, List.append_assoc]
  · rw [finished_append, delivered_append, h.finished_eq, List.append_assoc, hout,
      List.append_assoc]
  · rw [finished_append, Worker.performAll_append, h.performAll_eq, Option.bind_some, hperformAll]

end Accounts

theorem Answered.ne_stopped {jobs : ι → Job α β} {r : Registry α} {done : List ι} {k : ι}
    {a : Except WorkerError β} (h : Answered jobs r done k a) : a ≠ .error .stopped := by
  obtain ⟨-, -, w, w', -, -, hperform⟩ := h
  obtain ⟨answer, r', -, rfl, -⟩ := Worker.perform_eq_some_iff.mp hperform
  cases answer <;> simp [Except.mapError]

section Runs

variable [DecidableEq ι] [DecidableEq σ] {jobs : ι → Job α β} {r : Registry α}
  {events : List (Event ι σ)} {c d : Config ι σ α β} {e : Event ι σ}

theorem Accounted.step (h : Accounted jobs r events c) (hstep : Step jobs c e d) :
    Accounted jobs r (events ++ [e]) d := by
  cases hstep with
  | sent => exact h.extend rfl (List.append_nil _) (List.append_nil _) rfl
  | taken hloop hqueue =>
    refine h.extend ?_ ?_ ?_ rfl
    · rw [hqueue]
      exact List.append_nil _
    · rw [hloop]
      rfl
    · rw [hloop]
      rfl
  | finished hloop hperform =>
    refine h.extend (List.append_nil _) ?_ ?_ ?_
    · rw [hloop]
      rfl
    · rw [hloop]
      rfl
    · obtain ⟨-, r', -, -, rfl⟩ := Worker.perform_eq_some_iff.mp hperform
      show Worker.performAll jobs _ [_] = _
      rw [Worker.performAll_singleton, hperform]
      rfl
  | delivered hloop =>
    refine h.extend (List.append_nil _) ?_ ?_ rfl
    · rw [hloop]
      rfl
    · rw [hloop]
      rfl
  | ended hloop =>
    refine h.extend (List.append_nil _) ?_ ?_ rfl
    · rw [hloop]
      rfl
    · rw [hloop]
      rfl
  | _ => exact h.extend (List.append_nil _) (List.append_nil _) (List.append_nil _) rfl

theorem Run.accounted (h : Run jobs (.start r) events c) : Accounted jobs r events c := by
  induction h with
  | start => exact .start
  | step _ hstep ih => exact ih.step hstep

/-! ## What a step does to one call -/

/-- A step leaves a call alone, or takes it one stage further. -/
theorem Step.call_cases (h : Step jobs c e d) (k : ι) :
    d.calls k = c.calls k ∨
    c.calls k = .unmade ∧ d.calls k = .asking ∨
    c.calls k = .asking ∧ c.quit = false ∧ d.calls k = .sending ∨
    c.calls k = .sending ∧ e = .sent k ∧ d.calls k = .waiting ∨
    c.calls k ≠ .unmade ∧ c.quit = true ∧ d.calls k = .returned (.error .stopped) ∨
    c.calls k = .waiting ∧ ∃ a, c.results k = some a ∧ d.calls k = .returned a := by
  cases h with
  | @made k' hcall =>
    by_cases hk : k = k'
    · subst hk
      exact .inr (.inl ⟨hcall, c.calls_setCall_self k _⟩)
    · exact .inl (c.calls_setCall_of_ne hk _)
  | @refused k' hcall hquit =>
    by_cases hk : k = k'
    · subst hk
      exact .inr (.inr (.inr (.inr (.inl ⟨by simp [hcall], hquit, c.calls_setCall_self k _⟩))))
    · exact .inl (c.calls_setCall_of_ne hk _)
  | @passed k' hcall hquit =>
    by_cases hk : k = k'
    · subst hk
      exact .inr (.inr (.inl ⟨hcall, hquit, c.calls_setCall_self k _⟩))
    · exact .inl (c.calls_setCall_of_ne hk _)
  | @sent k' hcall =>
    by_cases hk : k = k'
    · subst hk
      exact .inr (.inr (.inr (.inl ⟨hcall, rfl, c.calls_setCall_self k _⟩)))
    · exact .inl (c.calls_setCall_of_ne hk _)
  | @gaveUp k' hcall hquit =>
    by_cases hk : k = k'
    · subst hk
      refine .inr (.inr (.inr (.inr (.inl ⟨?_, hquit, c.calls_setCall_self k _⟩))))
      rcases hcall with hcall | hcall <;> simp [hcall]
    · exact .inl (c.calls_setCall_of_ne hk _)
  | @received k' a hcall hresult =>
    by_cases hk : k = k'
    · subst hk
      exact .inr (.inr (.inr (.inr (.inr ⟨hcall, a, hresult, c.calls_setCall_self k _⟩))))
    · exact .inl (c.calls_setCall_of_ne hk _)
  | _ => exact .inl rfl

/-- A step leaves the answer kept for a call alone, or returns it, or puts it there. -/
theorem Step.result_cases (h : Step jobs c e d) (k : ι) :
    d.results k = c.results k ∨
    (∃ a, d.calls k = .returned a) ∧ d.results k = none ∨
    ∃ a, c.loop = .delivering k a ∧ e = .delivered k ∧ d.results k = some a := by
  cases h with
  | @received k' a =>
    by_cases hk : k = k'
    · subst hk
      exact .inr (.inl ⟨⟨a, c.calls_setCall_self k _⟩, Function.update_self _ _ _⟩)
    · exact .inl (Function.update_of_ne hk _ _)
  | @delivered k' a hloop =>
    by_cases hk : k = k'
    · subst hk
      exact .inr (.inr ⟨a, hloop, rfl, Function.update_self _ _ _⟩)
    · exact .inl (Function.update_of_ne hk _ _)
  | _ => exact .inl rfl

/-- A call returns because it hears that the worker was stopped, or with the answer kept for it. -/
theorem Step.returned_cases (h : Step jobs c e d) {k : ι} {a : Except WorkerError β}
    (hk : d.calls k = .returned a) :
    c.calls k = .returned a ∨ a = .error .stopped ∧ c.quit = true ∨ c.results k = some a := by
  rcases h.call_cases k with hkept | ⟨-, hnow⟩ | ⟨-, -, hnow⟩ | ⟨-, -, hnow⟩ | ⟨-, hquit, hnow⟩ |
    ⟨-, a', hresult, hnow⟩
  · exact .inl (hkept ▸ hk)
  all_goals rw [hnow] at hk; cases hk
  · exact .inr (.inl ⟨rfl, hquit⟩)
  · exact .inr (.inr hresult)

/-- A call waits from the step on in which its job enters the queue. -/
theorem Step.waiting_cases (h : Step jobs c e d) {k : ι} (hk : d.calls k = .waiting) :
    c.calls k = .waiting ∨ e = .sent k := by
  rcases h.call_cases k with
    hkept | ⟨-, hnow⟩ | ⟨-, -, hnow⟩ | ⟨-, hsent, -⟩ | ⟨-, -, hnow⟩ | ⟨-, a, -, hnow⟩
  · exact .inl (hkept ▸ hk)
  · rw [hnow] at hk
    cases hk
  · rw [hnow] at hk
    cases hk
  · exact .inr hsent
  · rw [hnow] at hk
    cases hk
  · rw [hnow] at hk
    cases hk

/-- A call that has put its job into the queue, or has given up. -/
def Call.PastSending : Call β → Prop
  | .waiting | .returned _ => True
  | _ => False

theorem Step.pastSending (h : Step jobs c e d) {k : ι} (hk : (c.calls k).PastSending) :
    (d.calls k).PastSending := by
  rcases h.call_cases k with
    hcall | ⟨hcall, -⟩ | ⟨hcall, -⟩ | ⟨hcall, -⟩ | ⟨-, -, hcall⟩ | ⟨-, a, -, hcall⟩
  · rwa [hcall]
  · rw [hcall] at hk
    exact hk.elim
  · rw [hcall] at hk
    exact hk.elim
  · rw [hcall] at hk
    exact hk.elim
  · rw [hcall]
    trivial
  · rw [hcall]
    trivial

/-- A job enters the queue in the step in which its call goes over from sending to waiting. -/
theorem sent_of_step (h : Step jobs c e d) :
    sent [e] = [] ∨ ∃ k, sent [e] = [k] ∧ c.calls k = .sending ∧ d.calls k = .waiting := by
  cases h with
  | @sent k hcall => exact .inr ⟨k, rfl, hcall, c.calls_setCall_self k _⟩
  | _ => exact .inl rfl

/-- No job enters the queue twice: its call is past sending from then on. -/
theorem Run.nodup_sent (h : Run jobs (.start r) events c) :
    (sent events).Nodup ∧ ∀ k ∈ sent events, (c.calls k).PastSending := by
  induction h with
  | start => exact ⟨List.nodup_nil, by simp [sent]⟩
  | @step events c e d _ hstep ih =>
    obtain ⟨hnodup, hpast⟩ := ih
    have hkept : ∀ k ∈ sent events, (d.calls k).PastSending :=
      fun k hk => hstep.pastSending (hpast k hk)
    rw [sent_append]
    rcases sent_of_step hstep with hsent | ⟨k, hsent, hsending, hwaiting⟩
    · rw [hsent, List.append_nil]
      exact ⟨hnodup, hkept⟩
    · have hnew : k ∉ sent events := by
        intro hk
        have hpast := hpast k hk
        rwa [hsending] at hpast
      rw [hsent, List.nodup_append_comm, List.singleton_append, List.nodup_cons]
      refine ⟨⟨hnew, hnodup⟩, ?_⟩
      intro k' hk'
      rcases List.mem_append.mp hk' with hk' | hk'
      · exact hkept k' hk'
      · rw [List.mem_singleton.mp hk', hwaiting]
        trivial

/-! ## Answers -/

/-- Every answer on its way, at the loop, with the call or returned, is that of its own job. -/
structure Faithful (jobs : ι → Job α β) (r : Registry α) (done : List ι) (c : Config ι σ α β) :
    Prop where
  delivering : ∀ k a, c.loop = .delivering k a → Answered jobs r done k a
  results : ∀ k a, c.results k = some a → Answered jobs r done k a
  returned : ∀ k a, c.calls k = .returned a → a = .error .stopped ∨ Answered jobs r done k a

theorem Faithful.step (h : Faithful jobs r (finished events) c)
    (haccount : Accounted jobs r events c) (hstep : Step jobs c e d) :
    Faithful jobs r (finished (events ++ [e])) d := by
  rw [finished_append]
  constructor
  · intro k a hloop
    cases hstep with
    | @finished k' a' w hworking hperform =>
      obtain ⟨rfl, rfl⟩ : k' = k ∧ a' = a := by simpa using hloop
      exact ⟨finished events, [], c.registry, w, rfl, haccount.performAll_eq, hperform⟩
    | taken | delivered | ended => cases hloop
    | _ => exact (h.delivering k a hloop).append _
  · intro k a hresult
    rcases hstep.result_cases k with hkept | ⟨-, hgone⟩ | ⟨a', hloop, -, hput⟩
    · exact (h.results k a (hkept ▸ hresult)).append _
    · rw [hgone] at hresult
      cases hresult
    · rw [hput] at hresult
      cases hresult
      exact (h.delivering k a hloop).append _
  · intro k a hreturned
    rcases hstep.returned_cases hreturned with hkept | ⟨rfl, -⟩ | hresult
    · exact (h.returned k a hkept).imp_right (·.append _)
    · exact .inl rfl
    · exact .inr ((h.results k a hresult).append _)

theorem Run.faithful (h : Run jobs (.start r) events c) : Faithful jobs r (finished events) c := by
  induction h with
  | start => exact ⟨by simp [Config.start], by simp [Config.start], by simp [Config.start]⟩
  | step hrun hstep ih => exact ih.step hrun.accounted hstep

/-- An answer that is kept for its call was delivered. -/
theorem Run.mem_delivered (h : Run jobs (.start r) events c) {k : ι} (hk : c.results k ≠ none) :
    k ∈ delivered events := by
  induction h with
  | start => exact absurd rfl hk
  | step _ hstep ih =>
    rw [delivered_append, List.mem_append]
    rcases hstep.result_cases k with hkept | ⟨-, hgone⟩ | ⟨a, -, rfl, -⟩
    · exact .inl (ih (hkept ▸ hk))
    · exact absurd hgone hk
    · exact .inr (by simp [delivered])

/-- The loop never waits to hand an answer over. -/
theorem Run.results_eq_none (h : Run jobs (.start r) events c) {k : ι} {a : Except WorkerError β}
    (hloop : c.loop = .delivering k a) : c.results k = none := by
  by_contra hresult
  have hdelivered := h.mem_delivered hresult
  have hfinished : (finished events).Nodup := by
    have hsent := h.nodup_sent.1
    rw [h.accounted.sent_eq, h.accounted.taken_eq] at hsent
    exact hsent.of_append_left.of_append_left
  rw [h.accounted.finished_eq, hloop] at hfinished
  -- the job on its way out is the last one finished, and was delivered before
  exact List.disjoint_of_nodup_append hfinished hdelivered (List.mem_singleton_self k)

/-! ## Stopping -/

/-- A worker that was stopped stays so. -/
theorem Step.quit (h : Step jobs c e d) (hquit : c.quit = true) : d.quit = true := by
  cases h with
  | closed => rfl
  | _ => exact hquit

/-- A worker is stopped only by a call that closes it. -/
theorem Run.exists_closed (h : Run jobs (.start r) events c) (hquit : c.quit = true) :
    ∃ j, .closed j ∈ events := by
  induction h with
  | start => cases hquit
  | @step events c e d _ hstep ih =>
    cases hstep with
    | @closed j => exact ⟨j, by simp⟩
    | _ =>
      obtain ⟨j, hj⟩ := ih hquit
      exact ⟨j, List.mem_append_left _ hj⟩

/-- The loop ends when the worker is stopped, and not before. -/
theorem Run.quit_of_ended (h : Run jobs (.start r) events c) (hloop : c.loop = .ended) :
    c.quit = true := by
  induction h with
  | start => cases hloop
  | step _ hstep ih =>
    refine hstep.quit ?_
    cases hstep with
    | ended _ hquit => exact hquit
    | taken | finished | delivered => cases hloop
    | _ => exact ih hloop

/-- A call to stop the worker returns only where the worker is stopped. -/
theorem Step.stop_cases (h : Step jobs c e d) (j : σ) :
    d.stops j = c.stops j ∨ d.stops j ≠ .returned ∨ d.quit = true := by
  have hset : ∀ {j' : σ} {stop : Stop}, stop ≠ .returned →
      (c.setStop j' stop).stops j = c.stops j ∨ (c.setStop j' stop).stops j ≠ .returned := by
    intro j' stop hstop
    by_cases hj : j = j'
    · subst hj
      rw [Config.stops_setStop_self]
      exact .inr hstop
    · exact .inl (c.stops_setStop_of_ne hj stop)
  cases h with
  | stopMade | stopPassed | stopBroke => exact (hset (by simp)).imp_right .inl
  | stopSaw _ hquit => exact .inr (.inr hquit)
  | closed => exact .inr (.inr rfl)
  | _ => exact .inl rfl

/-- When a call to stop the worker has returned, the worker is stopped. -/
theorem Run.quit_of_returned (h : Run jobs (.start r) events c) {j : σ}
    (hj : c.stops j = .returned) :
    c.quit = true := by
  induction h with
  | start => cases hj
  | step _ hstep ih =>
    rcases hstep.stop_cases j with hkept | hother | hquit
    · exact hstep.quit (ih (hkept ▸ hj))
    · exact absurd hj hother
    · exact hquit

/-- A call hears that the worker was stopped only where it was. -/
theorem Run.quit_of_stopped (h : Run jobs (.start r) events c) {k : ι}
    (hk : c.calls k = .returned (.error .stopped)) : c.quit = true := by
  induction h with
  | start => cases hk
  | step hrun hstep ih =>
    refine hstep.quit ?_
    rcases hstep.returned_cases hk with hkept | ⟨-, hquit⟩ | hresult
    · exact ih hkept
    · exact hquit
    · exact absurd rfl (hrun.faithful.results k _ hresult).ne_stopped

/-- While the worker is not stopped, every call that returns has the answer of its job. -/
theorem Run.answered (h : Run jobs (.start r) events c) (hquit : c.quit = false) {k : ι}
    {a : Except WorkerError β} (hk : c.calls k = .returned a) :
    Answered jobs r (finished events) k a := by
  refine (h.faithful.returned k a hk).resolve_left ?_
  rintro rfl
  have hstopped := h.quit_of_stopped hk
  rw [hquit] at hstopped
  cases hstopped

/-- What the jobs keep of a registry, a run keeps. -/
theorem Run.registry_keeps {P : Registry α → Prop}
    (hkeeps : ∀ k r answer r', P r → jobs k r = some (answer, r') → P r')
    (h : Run jobs (.start r) events c) (hr : P r) : P c.registry :=
  Worker.performAll_keeps hkeeps h.accounted.performAll_eq hr

end Runs

end Protocol

end StackMachine
