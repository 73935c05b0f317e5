import StackMachine.Proofs.Progress
import StackMachine.Proofs.Replies

/-!
# Requests that share a server

Requests to run a program, to check one and to list the instructions go through one worker and share
its registry. Over the standard instructions they do not notice each other: whatever is asked
before, after or at the same time, a request is answered as a server would answer it that was set up
for it alone, apart from the name under which the run was recorded (`returned_eq_answer_afresh`).

A server answers in two parts (`Service.answer_eq`): the worker carries out a job (`Service.job`),
and what it came to is made into a reply (`Service.conclude`). Only the jobs go through the worker.
What is recorded between the two parts changes the store, and with it nothing but the name.
-/

namespace StackMachine

open Text

/-- A request that a server takes to its worker. -/
inductive Inquiry where
  | run (request : Wire.RunRequest)
  | assemble (request : Wire.AssembleRequest)
  | instructions

/-- What a server replies. -/
inductive Reply where
  | run (answer : Except Refusal Wire.RunResponse)
  | assemble (answer : Except Refusal Wire.AssembleResponse)
  | instructions (answer : Except Refusal Wire.InstructionsResponse)

namespace Inquiry

/-- Why a request is refused before it gets to the worker. -/
def refusal? : Inquiry → Option Refusal
  | .run request =>
    if request.program = [] then some ⟨.invalidArgument, utf8 "program is required"⟩ else none
  | _ => none

/-- The reply to a request that the worker has no answer for. -/
def unanswered : Inquiry → WorkerError → Reply
  | .run _, e => .run (.ok (Service.unanswered e))
  | .assemble _, e => .assemble (.error (Service.refuse e))
  | .instructions, e => .instructions (.error (Service.refuse e))

end Inquiry

/-- A reply without the name of the record. -/
def Reply.nameless : Reply → Reply
  | .run (.ok response) => .run (.ok { response with runId := [] })
  | reply => reply

namespace Service

variable {α : Type}

/-- Replies to a request. -/
def answer [Action α] (s : Service α) (o : Occasion) : Inquiry → Option (Reply × Service α)
  | .run request => (s.run request o).map fun (answer, s) => (.run answer, s)
  | .assemble request => some (.assemble (s.assemble request), s)
  | .instructions => some (.instructions s.instructions, s)

/-- What a request has the worker do. -/
def job [Action α] (s : Service α) (o : Occasion) : Inquiry → Job α Reply
  | .run request => fun r =>
    (execute request.program request.debug (stepLimit s.maxSteps request.maxSteps)
      (s.deadline o.elapsed) o.fuel r).map fun (answer, r) => (answer.map fun m => .run (.ok m), r)
  | .assemble request => fun r => some (.ok (.assemble (.ok (check request.program r))), r)
  | .instructions => fun r =>
    some (.ok (.instructions (.ok { instructions := some (instructionInfos r) })), r)

/-- What a server makes of the worker's answer to a request. -/
def conclude (s : Service α) (stamp : History.Stamp) :
    Inquiry → Except WorkerError Reply → Reply × Service α
  | .run request, .ok (.run (.ok response)) =>
    let (response, s) := s.remember request.program response stamp
    (.run (.ok response), s)
  | _, .ok reply => (reply, s)
  | q, .error e => (q.unanswered e, s)

/-- A request that is refused does not depend on the server. -/
theorem answer_of_refusal [Action α] {q : Inquiry} {e : Refusal} (h : q.refusal? = some e)
    (s : Service α) (o : Occasion) : s.answer o q = some (.run (.error e), s) := by
  cases q with
  | run request =>
    rw [Inquiry.refusal?] at h
    by_cases hprogram : request.program = []
    · rw [if_pos hprogram] at h
      cases h
      rw [answer, run, if_pos hprogram]
      rfl
    · rw [if_neg hprogram] at h
      cases h
  | assemble | instructions => cases h

/-- Any other request has its job done, and the reply is concluded from what it came to. -/
theorem answer_eq [Action α] {q : Inquiry} (h : q.refusal? = none) (s : Service α) (o : Occasion) :
    s.answer o q = (s.worker.perform (s.job o q)).map fun x =>
      { s with worker := x.2 }.conclude o.stamp q x.1 := by
  obtain ⟨⟨registry, stopped⟩, store, maxSteps, timeout⟩ := s
  cases q with
  | run request =>
    have hprogram : request.program ≠ [] := by
      intro hempty
      rw [Inquiry.refusal?, if_pos hempty] at h
      cases h
    rw [answer, run, if_neg hprogram]
    cases stopped with
    | true => rfl
    | false =>
      simp only [job, Worker.perform, Bool.false_eq_true, if_false, Option.bind_eq_bind,
        Option.pure_def]
      cases execute request.program request.debug (stepLimit maxSteps request.maxSteps)
        (deadline ⟨⟨registry, false⟩, store, maxSteps, timeout⟩ o.elapsed) o.fuel registry with
      | none => rfl
      | some outcome =>
        obtain ⟨answer, r⟩ := outcome
        cases answer <;> rfl
  | assemble request => cases stopped <;> rfl
  | instructions => cases stopped <;> rfl

/-! ## What a reply depends on -/

theorem remember_nameless (s : Service α) (program : Bytes) (response : Wire.RunResponse)
    (stamp : History.Stamp) :
    { (s.remember program response stamp).1 with runId := [] } = { response with runId := [] } := by
  unfold remember
  split
  · rfl
  · split <;> rfl

/-- Apart from the name of the record, a reply is concluded from the worker's answer alone. -/
theorem conclude_nameless (s s' : Service α) (stamp stamp' : History.Stamp) (q : Inquiry)
    (a : Except WorkerError Reply) :
    (s.conclude stamp q a).1.nameless = (s'.conclude stamp' q a).1.nameless := by
  cases q with
  | run request =>
    cases a with
    | error e => rfl
    | ok reply =>
      cases reply with
      | run answer =>
        cases answer with
        | error e => rfl
        | ok response =>
          simp only [conclude, Reply.nameless, remember_nameless]
      | assemble | instructions => rfl
  | assemble | instructions => cases a <;> rfl

/-- No run has its time cut short. -/
def InTime (s : Service α) (o : Occasion) : Prop := ∀ turn, s.deadline o.elapsed turn = none

/-- A server with the same limits that was just set up, with a store of its own. -/
def afresh (s : Service Standard) (store : Option History.Store) : Service Standard :=
  { s with worker := { registry := .standard }, store }

end Service

/-- More fuel does not change what executing a program comes to. -/
theorem execute_mono {α : Type} [Action α] {program : Bytes} {debug : Bool} {maxSteps : Int64}
    {signals : Signals} {fuel fuel' : Nat} {r : Registry α}
    {outcome : Except Bytes Wire.RunResponse × Registry α} (hle : fuel ≤ fuel')
    (h : execute program debug maxSteps signals fuel r = some outcome) :
    execute program debug maxSteps signals fuel' r = some outcome := by
  unfold execute at h ⊢
  cases hassemble : assemble r program with
  | error e =>
    rw [hassemble] at h
    exact h
  | ok code =>
    rw [hassemble] at h
    dsimp only at h ⊢
    cases hrun : State.run code signals fuel { State.new r debug with maxSteps } with
    | none =>
      rw [hrun] at h
      cases h
    | some result =>
      have hrun' : State.run code signals fuel' { State.new r debug with maxSteps } = some result :=
        State.loop_mono hrun hle
      rw [hrun] at h
      rw [hrun']
      exact h

namespace Service

/-- The jobs of requests leave the standard instructions as they are. -/
theorem job_standard {s : Service Standard} {o : Occasion} {q : Inquiry} {a : Except Bytes Reply}
    {r : Registry Standard} (h : s.job o q .standard = some (a, r)) : r = .standard := by
  cases q with
  | run request =>
    obtain ⟨⟨answer, r'⟩, hexecute, heq⟩ := Option.map_eq_some_iff.mp h
    obtain ⟨rfl, -⟩ := execute_standard hexecute
    exact (Prod.mk.inj heq).2.symm
  | assemble request => exact (Prod.mk.inj (Option.some.inj h)).2.symm
  | instructions => exact (Prod.mk.inj (Option.some.inj h)).2.symm

/-- What a job comes to depends on no more of the server than its step limit, and on no more of the
occasion than that there is time. -/
theorem job_mono [Action α] {s t : Service α} {o o' : Occasion} {q : Inquiry} {r : Registry α}
    {outcome : Except Bytes Reply × Registry α} (hlimit : t.maxSteps = s.maxSteps)
    (htime : s.InTime o) (htime' : t.InTime o') (hle : o.fuel ≤ o'.fuel)
    (h : s.job o q r = some outcome) :
    t.job o' q r = some outcome := by
  cases q with
  | run request =>
    obtain ⟨x, hexecute, rfl⟩ := Option.map_eq_some_iff.mp h
    have hsignals : s.deadline o.elapsed = t.deadline o'.elapsed := by
      funext turn
      exact (htime turn).trans (htime' turn).symm
    refine Option.map_eq_some_iff.mpr ⟨x, ?_, rfl⟩
    rw [← hsignals, hlimit]
    exact execute_mono hle hexecute
  | assemble request => exact h
  | instructions => exact h

/-- A server that was just set up replies from what the job comes to on the standard
instructions. -/
theorem answer_afresh {s : Service Standard} {store : Option History.Store} {o : Occasion}
    {q : Inquiry} (hq : q.refusal? = none) {a : Except WorkerError Reply} {w : Worker Standard}
    (h : Worker.perform ⟨.standard, false⟩ ((s.afresh store).job o q) = some (a, w)) :
    (s.afresh store).answer o q =
      some ({ s.afresh store with worker := w }.conclude o.stamp q a) := by
  rw [answer_eq hq]
  show Option.map _ (Worker.perform ⟨.standard, false⟩ ((s.afresh store).job o q)) = _
  rw [h]
  rfl

/-- A job for which a server that was just set up has a reply comes to an end, whoever does it. -/
theorem job_ends {s : Service Standard} {store : Option History.Store} {o o' : Occasion}
    {q : Inquiry} (hq : q.refusal? = none) (htime : s.InTime o) (htime' : s.InTime o')
    (hle : o.fuel ≤ o'.fuel) (h : (s.afresh store).answer o q ≠ none) :
    (s.job o' q).Ends (· = .standard) := by
  rintro r rfl
  rw [answer_eq hq, ne_eq, Option.map_eq_none_iff] at h
  obtain ⟨⟨a, w⟩, hperform⟩ := Option.ne_none_iff_exists'.mp h
  obtain ⟨answer, r, hjob, -, -⟩ := Worker.perform_eq_some_iff.mp hperform
  exact ⟨answer, r, job_mono rfl htime htime' hle hjob, job_standard hjob⟩

end Service

/-! ## Isolation -/

namespace Protocol

variable {ι σ : Type} [DecidableEq ι] [DecidableEq σ]

/-- Any number of requests to a server over the standard instructions, with time enough for all of
them, and a worker that nobody has stopped: however their steps interleave,

* the registry stays the one of the standard instructions;
* what the server concludes from the worker's answer to a request, whatever its store has become by
  then, is what a server that was just set up for this request would reply, apart from the name of
  the record;
* a request can be led to the worker's answer, if a server that was just set up would reply to it
  and to each of those before it;
* a request that is refused before it gets to the worker is refused by every server alike. -/
theorem returned_eq_answer_afresh (s : Service Standard) (requests : ι → Inquiry)
    (occasions : ι → Occasion) (htime : ∀ k, s.InTime (occasions k)) {events : List (Event ι σ)}
    {c : Config ι σ Standard Reply}
    (h : Run (fun k => s.job (occasions k) (requests k)) (.start .standard) events c)
    (hquit : c.quit = false) :
    c.registry = .standard ∧
    (∀ k a, (requests k).refusal? = none → c.calls k = .returned a →
      ∀ (t : Service Standard) stamp store o, s.InTime o → (occasions k).fuel ≤ o.fuel →
      ∃ reply s', (s.afresh store).answer o (requests k) = some (reply, s') ∧
        (t.conclude stamp (requests k) a).1.nameless = reply.nameless) ∧
    (∀ k, (∀ k' ∈ k :: c.pending, (requests k').refusal? = none ∧
        ∃ store o, s.InTime o ∧ o.fuel ≤ (occasions k').fuel ∧
          (s.afresh store).answer o (requests k') ≠ none) →
      ∃ more d a, Run (fun k => s.job (occasions k) (requests k)) c more d ∧ d.quit = false ∧
        d.calls k = .returned a) ∧
    ∀ k e, (requests k).refusal? = some e →
      ∀ (t : Service Standard) o, t.answer o (requests k) = some (.run (.error e), t) := by
  have hkeeps : ∀ k r answer r', r = .standard →
      s.job (occasions k) (requests k) r = some (answer, r') →
      r' = .standard := by
    rintro k r answer r' rfl hjob
    exact Service.job_standard hjob
  have hregistry : c.registry = .standard := h.registry_keeps hkeeps rfl
  refine ⟨hregistry, ?_, ?_, fun k e hk t o => t.answer_of_refusal hk o⟩
  · intro k a hk hreturned t stamp store o ho hle
    obtain ⟨before, after, found, w, -, hbefore, hperform⟩ := h.answered hquit hreturned
    -- the job found the registry as the jobs before it have left it
    obtain rfl : found = .standard := Worker.performAll_keeps hkeeps hbefore rfl
    obtain ⟨answer, r, hjob, hanswer, hw⟩ := Worker.perform_eq_some_iff.mp hperform
    have hjob' : (s.afresh store).job o (requests k) .standard = some (answer, r) :=
      Service.job_mono rfl (htime k) ho hle hjob
    have hperform' := Worker.perform_eq_some_iff.mpr ⟨answer, r, hjob', hanswer, hw⟩
    refine ⟨_, _, Service.answer_afresh hk hperform', ?_⟩
    exact Service.conclude_nameless _ _ _ _ _ _
  · intro k hreplies
    refine h.exists_returned (P := (· = .standard)) hquit hregistry ?_
    intro k' hk'
    obtain ⟨hadmitted, store, o, ho, hle, hreply⟩ := hreplies k' hk'
    exact Service.job_ends hadmitted ho (htime k') hle hreply

/-- Two programs to try a server with: the first divides by zero and leaves two numbers on its
stack, the second adds two numbers without having put any there. -/
def leftovers : Nat → Inquiry
  | 0 => .run { program := utf8 "LOAD_CONST 7\nLOAD_CONST 0\nDIV" }
  | _ => .run { program := utf8 "ADD\nEXIT" }

/-- An occasion with fuel for a short run. -/
def shortOccasion : Occasion := { elapsed := fun _ => 0, fuel := 4, stamp := ⟨utf8 "run-1", 0⟩ }

/-- A server that records its runs. -/
def recordingServer : Service Standard :=
  { worker := { registry := .standard }, store := some .memory }

/-- The response to a run that came to nothing but a fault. -/
def faultResponse (steps : Int64) (kind message : String) : Wire.RunResponse :=
  { steps, fault := some { kind := utf8 kind, message := utf8 message, pc := steps } }

theorem inTime_shortOccasion : recordingServer.InTime shortOccasion := by
  intro turn
  exact if_neg fun htimeout => absurd htimeout.1 (by decide)

/-- The first program, on its own, divides by zero. -/
theorem job_leftovers_zero :
    recordingServer.job shortOccasion (leftovers 0) .standard =
      some (.ok (.run (.ok (faultResponse 3 "div_by_zero" "div by zero"))), .standard) := by
  have hassemble : assemble Registry.standard (utf8 "LOAD_CONST 7\nLOAD_CONST 0\nDIV") =
      .ok #[⟨1, 7⟩, ⟨1, 0⟩, ⟨5, 0⟩] := by
    have hlines : textLines (utf8 "LOAD_CONST 7\nLOAD_CONST 0\nDIV") =
        [utf8 "LOAD_CONST 7", utf8 "LOAD_CONST 0", utf8 "DIV"] := by decide
    rw [assemble, programLines_eq, hlines]
    simp only [assembleLines, assembleLine, split_eq_splitOn (by decide : ascii ' ' < 128)]
    decide
  have hexecute : execute (utf8 "LOAD_CONST 7\nLOAD_CONST 0\nDIV") false 0
      (recordingServer.deadline shortOccasion.elapsed) 4 Registry.standard =
      some (.ok (faultResponse 3 "div_by_zero" "div by zero"), .standard) := by
    unfold execute
    rw [hassemble, funext inTime_shortOccasion]
    rfl
  exact congrArg (Option.map _) hexecute

/-- The second program, on its own, finds nothing to add. -/
theorem job_leftovers_one :
    recordingServer.job shortOccasion (leftovers 1) .standard =
      some (.ok (.run (.ok (faultResponse 1 "vm_stackfail" "not enough stack when adding"))),
        .standard) := by
  have hassemble : assemble Registry.standard (utf8 "ADD\nEXIT") = .ok #[⟨4, 0⟩, ⟨2, 0⟩] := by
    have hlines : textLines (utf8 "ADD\nEXIT") = [utf8 "ADD", utf8 "EXIT"] := by decide
    rw [assemble, programLines_eq, hlines]
    simp only [assembleLines, assembleLine, split_eq_splitOn (by decide : ascii ' ' < 128)]
    decide
  have hexecute :
      execute (utf8 "ADD\nEXIT") false 0 (recordingServer.deadline shortOccasion.elapsed) 4
      Registry.standard =
      some (.ok (faultResponse 1 "vm_stackfail" "not enough stack when adding"), .standard) := by
    unfold execute
    rw [hassemble, funext inTime_shortOccasion]
    rfl
  exact congrArg (Option.map _) hexecute

/-- Both programs are sent before either is taken up. -/
theorem exists_leftovers_run :
    ∃ (events : List (Event Nat Unit)) (c : Config Nat Unit Standard Reply),
      Run (fun k => recordingServer.job shortOccasion (leftovers k)) (.start .standard) events c ∧
      c.quit = false ∧ c.pending = [] ∧
      c.calls 0 = .returned (.ok (.run (.ok (faultResponse 3 "div_by_zero" "div by zero")))) ∧
      c.calls 1 = .returned
        (.ok (.run (.ok (faultResponse 1 "vm_stackfail" "not enough stack when adding")))) := by
  have hzero := Worker.perform_eq_some_iff.mpr ⟨_, _, job_leftovers_zero, rfl, rfl⟩
  have hone := Worker.perform_eq_some_iff.mpr ⟨_, _, job_leftovers_one, rfl, rfl⟩
  have hstart : Run (σ := Unit) (fun k => recordingServer.job shortOccasion (leftovers k))
    (.start .standard) [] (.start .standard) := .start
  exact ⟨_, _, hstart.step (.made (k := 0) rfl)
    |>.step (.passed (k := 0) rfl rfl)
    |>.step (.made (k := 1) rfl)
    |>.step (.sent (k := 0) rfl (by decide))
    |>.step (.passed (k := 1) rfl rfl)
    |>.step (.sent (k := 1) rfl (by decide))
    |>.step (.taken (k := 0) rfl rfl)
    |>.step (.finished (k := 0) rfl hzero)
    |>.step (.delivered (k := 0) rfl rfl)
    |>.step (.taken (k := 1) rfl rfl)
    |>.step (.finished (k := 1) rfl hone)
    |>.step (.received (k := 0) rfl rfl)
    |>.step (.delivered (k := 1) rfl rfl)
    |>.step (.received (k := 1) rfl rfl), rfl, rfl, rfl, rfl⟩

/-- The program that adds does not find the numbers of the one that was taken up before it: it fails
as it does alone, and a third request is answered after both. -/
theorem returned_eq_answer_afresh_leftovers :
    ∃ (events : List (Event Nat Unit)) (c : Config Nat Unit Standard Reply) (reply : Reply)
      (s' : Service Standard),
      Run (fun k => recordingServer.job shortOccasion (leftovers k)) (.start .standard) events c ∧
      c.quit = false ∧
      c.calls 0 = .returned (.ok (.run (.ok (faultResponse 3 "div_by_zero" "div by zero")))) ∧
      c.calls 1 = .returned
        (.ok (.run (.ok (faultResponse 1 "vm_stackfail" "not enough stack when adding")))) ∧
      c.registry = .standard ∧
      (recordingServer.afresh none).answer shortOccasion (leftovers 1) = some (reply, s') ∧
      .run (.ok (faultResponse 1 "vm_stackfail" "not enough stack when adding")) = reply.nameless ∧
      ∃ more d a, Run (fun k => recordingServer.job shortOccasion (leftovers k)) c more d ∧
        d.quit = false ∧ d.calls 2 = .returned a := by
  obtain ⟨events, c, hrun, hquit, hpending, hzero, hone⟩ := exists_leftovers_run
  obtain ⟨hregistry, hanswers, hprogress, -⟩ :=
    returned_eq_answer_afresh recordingServer leftovers (fun _ => shortOccasion)
      (fun _ => inTime_shortOccasion) hrun hquit
  obtain ⟨reply, s', hanswer, hsame⟩ :=
    hanswers 1 _ rfl hone recordingServer shortOccasion.stamp none shortOccasion
      inTime_shortOccasion le_rfl
  refine ⟨events, c, reply, s', hrun, hquit, hzero, hone, hregistry, hanswer, hsame, hprogress 2 ?_⟩
  -- the third request is the second one over again
  rw [hpending]
  intro k hk
  obtain rfl := List.mem_singleton.mp hk
  refine ⟨rfl, none, shortOccasion, inTime_shortOccasion, le_rfl, ?_⟩
  show (recordingServer.afresh none).answer shortOccasion (leftovers 1) ≠ none
  rw [hanswer]
  exact Option.some_ne_none _

end Protocol

end StackMachine
