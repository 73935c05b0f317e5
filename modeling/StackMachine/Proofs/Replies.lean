import StackMachine.Service.Machine
import StackMachine.Proofs.Messages
import StackMachine.Proofs.Wording

/-!
# Replies that survive the wire

A service answers with texts that it has put together itself, and nobody checks them before they are
sent; the client that decodes them does. The reply to a run always arrives (`decode_encode_run`).
The reply to a check arrives only if there are no more diagnostics than a reader takes, and it is up
to the program how many there are: one for each faulty line (`decode_encode_assemble`).
-/

namespace StackMachine

open Text Cbor

/-! ## Running -/

namespace Wire.RunResponse

/-- Every text of a response is UTF-8. -/
structure InUtf8 (m : RunResponse) : Prop where
  runId : isUtf8 m.runId = true
  output : isUtf8 m.output = true
  trace : isUtf8 m.trace = true
  fault : ∀ f ∈ m.fault, isUtf8 f.kind = true ∧ isUtf8 f.message = true

/-- The texts of a response have lengths that a machine can count. -/
structure Fits (m : RunResponse) : Prop where
  runId : m.runId.length < 2 ^ 63
  output : m.output.length < 2 ^ 63
  trace : m.trace.length < 2 ^ 63
  fault : ∀ f ∈ m.fault, f.kind.length < 2 ^ 63 ∧ f.message.length < 2 ^ 63

theorem InUtf8.sendable {m : RunResponse} (h : m.InUtf8) (hfits : m.Fits) : m.Sendable where
  runId := ⟨h.runId, hfits.runId⟩
  output := ⟨h.output, hfits.output⟩
  trace := ⟨h.trace, hfits.trace⟩
  fault f hf := ⟨⟨(h.fault f hf).1, (hfits.fault f hf).1⟩, ⟨(h.fault f hf).2, (hfits.fault f hf).2⟩⟩

/-- The response to a failure says nothing but what failed. -/
theorem inUtf8_of_failure {e : Failure} (h : e.InUtf8) :
    InUtf8 { fault := some (.ofFailure e) } where
  runId := rfl
  output := rfl
  trace := rfl
  fault f hf := by
    obtain rfl := Option.some.inj hf
    exact h.faultInfo

end Wire.RunResponse

/-- Executing a program over the standard instructions never breaks down and leaves them as they
are. What it answers is UTF-8 if the program is. -/
theorem execute_standard {program : Bytes} {debug : Bool} {maxSteps : Int64} {signals : Signals}
    {fuel : Nat} {answer : Except Bytes Wire.RunResponse} {r : Registry Standard}
    (h : execute program debug maxSteps signals fuel Registry.standard = some (answer, r)) :
    r = .standard ∧
    ∃ response, answer = .ok response ∧ (isUtf8 program = true → response.InUtf8) := by
  unfold execute at h
  split at h
  · next e hassemble =>
    obtain ⟨rfl, rfl⟩ := Prod.mk.inj (Option.some.inj h)
    exact ⟨rfl, _, rfl,
      fun hprogram => Wire.RunResponse.inUtf8_of_failure (inUtf8_of_assemble hprogram hassemble)⟩
  · next code _ =>
    have hfresh : State.Spoken { State.new Registry.standard debug with maxSteps } :=
      ⟨rfl, rfl, rfl⟩
    dsimp only at h
    split at h
    · cases h
    · next message t hrun =>
      -- no standard instruction breaks down
      obtain ⟨-, ⟨v, hv⟩ | ⟨e, he, -⟩⟩ := hfresh.run hrun
      · cases hv
      · cases he
    · next ending t _ hrun =>
      obtain ⟨rfl, rfl⟩ := Prod.mk.inj (Option.some.inj h)
      obtain ⟨ht, hending⟩ := hfresh.run hrun
      refine ⟨ht.registry, _, rfl, fun _ => ⟨rfl, ht.output, ht.stdout, ?_⟩⟩
      intro f hf
      rcases hending with ⟨v, rfl⟩ | ⟨e, rfl, he⟩
      · cases hf
      · obtain rfl := Option.some.inj hf
        exact he.faultInfo

/-! ### Recording -/

namespace History.Store

/-- A store takes in a run of this name: it is open, it may be changed, and the name is free. -/
def Admits (s : Store) (id : Bytes) : Prop :=
  s.isOpen = true ∧ s.place.access ≠ .readOnly ∧ s.log.get? id = none

/-- A store with one more run. -/
def add (s : Store) (run : Run) : Store := { s with log := s.log ++ [run] }

/-- A run is recorded by putting it behind the others, if the store takes it in. -/
theorem record_eq_ok_iff {s s' : Store} {d : Draft} {stamp : Stamp} {id : Bytes} :
    s.record none d stamp = .ok (id, s') ↔
      s.Admits (d.complete stamp).id ∧ id = (d.complete stamp).id ∧
      s' = s.add (d.complete stamp) := by
  unfold record available Admits add
  cases hopen : s.isOpen with
  | false => simp [bind, Except.bind]
  | true =>
    by_cases haccess : s.place.access = .readOnly
    · simp [bind, Except.bind, haccess]
    · cases hget : s.log.get? (d.complete stamp).id with
      | some run => simp [bind, Except.bind, haccess, hget]
      | none => simp [bind, Except.bind, haccess, hget, Log.insert_eq, eq_comm]

/-- A draft without a name of its own is recorded under that of the stamp. -/
theorem record_eq_ok {s : Store} {d : Draft} {stamp : Stamp} (hid : d.id = [])
    (h : s.Admits stamp.id) :
    s.record none d stamp = .ok (stamp.id, s.add (d.complete stamp)) := by
  have hname : (d.complete stamp).id = stamp.id := if_pos hid
  exact record_eq_ok_iff.mpr ⟨hname ▸ h, hname.symm, rfl⟩

end History.Store

namespace Service

/-- A response that the store takes in gets the name of the stamp. -/
theorem remember_eq {α : Type} {s : Service α} {base : History.Store} {program : Bytes}
    {response : Wire.RunResponse} {stamp : History.Stamp} (hstore : s.store = some base)
    (hadmits : base.Admits stamp.id) :
    s.remember program response stamp =
      ({ response with runId := stamp.id },
        { s with store := some (base.add ((response.draft program).complete stamp)) }) := by
  unfold remember
  rw [hstore]
  dsimp only
  rw [History.Store.record_eq_ok rfl hadmits]

/-- What a response has said, it says after it was recorded too; its name is then that of
the stamp. -/
theorem inUtf8_remember {s : Service Standard} {program : Bytes} {response : Wire.RunResponse}
    {stamp : History.Stamp} (h : response.InUtf8) (hid : isUtf8 stamp.id = true) :
    (s.remember program response stamp).1.InUtf8 := by
  unfold remember
  split
  · exact h
  · split
    · next id store' hrecord =>
      obtain ⟨-, rfl, -⟩ := History.Store.record_eq_ok_iff.mp hrecord
      exact ⟨hid, h.output, h.trace, h.fault⟩
    · exact h

theorem worker_remember (s : Service Standard) (program : Bytes) (response : Wire.RunResponse)
    (stamp : History.Stamp) : (s.remember program response stamp).2.worker = s.worker := by
  unfold remember
  split
  · rfl
  · split <;> rfl

/-- A program that is not empty is refused by a worker that was stopped, or executed; then an
instruction has broken down, or there is a response, and it is remembered. -/
theorem run_outcomes {α : Type} [Action α] {s s' : Service α} {request : Wire.RunRequest}
    {o : Occasion} {answer : Except Refusal Wire.RunResponse} (hne : request.program ≠ [])
    (h : s.run request o = some (answer, s')) :
    (s.worker.stopped = true ∧ answer = .ok (unanswered .stopped) ∧ s' = s) ∨
    s.worker.stopped = false ∧ ∃ result r,
      execute request.program request.debug (stepLimit s.maxSteps request.maxSteps)
        (s.deadline o.elapsed) o.fuel s.worker.registry = some (result, r) ∧
      ((∃ message, result = .error message ∧ answer = .ok (unanswered (.broke message)) ∧
          s' = { s with worker.registry := r }) ∨
        ∃ response, result = .ok response ∧
          answer =
            .ok ({ s with worker.registry := r }.remember request.program response o.stamp).1 ∧
          s' = ({ s with worker.registry := r }.remember request.program response o.stamp).2) := by
  obtain ⟨⟨registry, stopped⟩, store, maxSteps, timeout⟩ := s
  unfold run at h
  rw [if_neg hne] at h
  cases stopped with
  | true =>
    obtain ⟨rfl, rfl⟩ := Prod.mk.inj (Option.some.inj h)
    exact .inl ⟨rfl, rfl, rfl⟩
  | false =>
    refine .inr ⟨rfl, ?_⟩
    dsimp only [Worker.perform] at h
    simp only [Bool.false_eq_true, if_false, bind_assoc, pure_bind] at h
    rw [Option.bind_eq_bind, Option.bind_eq_some_iff] at h
    obtain ⟨⟨result, r⟩, hexecute, h⟩ := h
    refine ⟨result, r, hexecute, ?_⟩
    cases result with
    | error message =>
      obtain ⟨rfl, rfl⟩ := Prod.mk.inj (Option.some.inj h)
      exact .inl ⟨message, rfl, rfl, rfl⟩
    | ok response =>
      obtain ⟨rfl, rfl⟩ := Prod.mk.inj (Option.some.inj h)
      exact .inr ⟨response, rfl, rfl, rfl⟩

/-- A request to run is refused by a worker that was stopped, or executed and remembered. -/
theorem run_cases {s s' : Service Standard} {request : Wire.RunRequest} {o : Occasion}
    {answer : Except Refusal Wire.RunResponse} (hregistry : s.worker.registry = .standard)
    (hne : request.program ≠ []) (h : s.run request o = some (answer, s')) :
    (answer = .ok (unanswered .stopped) ∧ s' = s) ∨
    ∃ response,
      execute request.program request.debug (stepLimit s.maxSteps request.maxSteps)
        (s.deadline o.elapsed) o.fuel Registry.standard = some (.ok response, .standard) ∧
      answer = .ok (s.remember request.program response o.stamp).1 ∧
      s' = (s.remember request.program response o.stamp).2 := by
  rcases run_outcomes hne h with ⟨-, hanswer, hs'⟩ | ⟨-, result, r, hexecute, hresult⟩
  · exact .inl ⟨hanswer, hs'⟩
  · rw [hregistry] at hexecute
    obtain ⟨rfl, response, rfl, -⟩ := execute_standard hexecute
    have hsame : { s with worker.registry := .standard } = s := by rw [← hregistry]
    rw [hsame] at hresult
    rcases hresult with ⟨message, herror, -⟩ | ⟨response', hok, hanswer, hs'⟩
    · cases herror
    · obtain rfl := Except.ok.inj hok
      exact .inr ⟨response, hexecute, hanswer, hs'⟩

/-- The reply of a service over the standard instructions to a run of a program that is UTF-8 is
decoded from its bytes as it was sent, whether the run was recorded, refused by the worker or cut
short. The service is then still one over the standard instructions. -/
theorem decode_encode_run {s s' : Service Standard} {request : Wire.RunRequest} {o : Occasion}
    {answer : Except Refusal Wire.RunResponse} (hregistry : s.worker.registry = .standard)
    (hne : request.program ≠ []) (hprogram : isUtf8 request.program = true)
    (hid : isUtf8 o.stamp.id = true) (h : s.run request o = some (answer, s')) :
    s'.worker.registry = .standard ∧
    ∃ response, answer = .ok response ∧ response.InUtf8 ∧
      (response.Fits → Wire.decode (Wire.encode response) = .ok response) := by
  have hreply : s'.worker.registry = .standard ∧
      ∃ response, answer = .ok response ∧ response.InUtf8 := by
    rcases run_cases hregistry hne h with ⟨rfl, rfl⟩ | ⟨response, hexecute, rfl, rfl⟩
    · refine ⟨hregistry, _, rfl, rfl, rfl, rfl, ?_⟩
      intro f hf
      obtain rfl := Option.some.inj hf
      exact ⟨isUtf8_utf8 _, isUtf8_utf8 _⟩
    · obtain ⟨-, response', heq, hutf8⟩ := execute_standard hexecute
      obtain rfl := Except.ok.inj heq
      rw [worker_remember]
      exact ⟨hregistry, _, rfl, inUtf8_remember (hutf8 hprogram) hid⟩
  obtain ⟨hstays, response, hanswer, hutf8⟩ := hreply
  refine ⟨hstays, response, hanswer, hutf8, fun hfits => ?_⟩
  exact (hutf8.sendable hfits).travels.decode_encode (by decide)

/-- A surrogate, which codes for no character, is written as the replacement character; the run is
recorded. -/
theorem decode_encode_run_surrogate :
    let s : Service Standard := { worker := { registry := .standard }, store := some .memory }
    let request : Wire.RunRequest := { program := utf8 "LOAD_CONST 55296\nWRITE_CHAR\nEXIT" }
    let o : Occasion := { elapsed := fun _ => 0, fuel := 4, stamp := ⟨utf8 "run-1", 0⟩ }
    ∃ response s', s.run request o = some (.ok response, s') ∧
      response.runId = utf8 "run-1" ∧ response.output = encodeChar (Char.ofNat 0xFFFD) ∧
      s'.worker.registry = .standard ∧ response.InUtf8 ∧
      Wire.decode (Wire.encode response) = .ok response := by
  intro s request o
  have hlines : textLines request.program =
      [utf8 "LOAD_CONST 55296", utf8 "WRITE_CHAR", utf8 "EXIT"] := by decide
  have hassemble : StackMachine.assemble Registry.standard request.program =
      .ok #[⟨1, 55296⟩, ⟨12, 0⟩, ⟨2, 0⟩] := by
    rw [StackMachine.assemble, programLines_eq, hlines]
    simp only [assembleLines, assembleLine]
    rw [split_eq_splitOn (by decide), split_eq_splitOn (by decide), split_eq_splitOn (by decide)]
    decide
  have hsignals : s.deadline o.elapsed = fun _ => none := by
    funext turn
    exact if_neg fun htimeout => absurd htimeout.1 (by decide)
  let response : Wire.RunResponse :=
    { output := encodeChar (Char.ofNat 0xFFFD), steps := 3, result := 55296 }
  have hexecute : execute request.program false 0 (s.deadline o.elapsed) 4 Registry.standard =
      some (.ok response, .standard) := by
    unfold execute
    rw [hassemble, hsignals]
    rfl
  have hrun : s.run request o = some (.ok { response with runId := utf8 "run-1" },
      (s.remember request.program response o.stamp).2) := by
    have hne : request.program ≠ [] := by decide
    have hlimit : stepLimit s.maxSteps request.maxSteps = 0 := by decide
    unfold run
    rw [if_neg hne, hlimit]
    show (execute request.program false 0 (s.deadline o.elapsed) 4 Registry.standard >>= _) >>= _ =
      _
    rw [hexecute]
    rfl
  have hfits : Wire.RunResponse.Fits { response with runId := utf8 "run-1" } := by
    refine ⟨by decide, by decide, by decide, ?_⟩
    rintro f ⟨⟩
  obtain ⟨hstays, response', hanswer, hutf8, hdecode⟩ :=
    decode_encode_run rfl (by decide) (isUtf8_utf8 _) (isUtf8_utf8 _) hrun
  obtain rfl := Except.ok.inj hanswer
  exact ⟨_, _, hrun, rfl, rfl, hstays, hutf8, hdecode hfits⟩

end Service

/-! ## Checking -/

/-- The lines of a program that spell no instruction. -/
def faultyLines {α : Type} (r : Registry α) (program : Bytes) : List Bytes :=
  (programLines program).filter fun line => !(assembleLine r line).isOk

/-- There is one failure for each faulty line. -/
theorem length_validate {α : Type} (r : Registry α) (program : Bytes) :
    (validate r program).length = (faultyLines r program).length := by
  have hlines : ∀ number lines, (validateLines r number lines).length =
      (lines.filter fun line => !(assembleLine r line).isOk).length := by
    intro number lines
    induction lines generalizing number with
    | nil => rfl
    | cons line lines ih =>
      rw [validateLines]
      cases hline : assembleLine r line with
      | error e =>
        rw [List.filter_cons_of_pos (by simp [hline, Except.isOk, Except.toBool]), List.length_cons,
          List.length_cons, ih]
      | ok i =>
        rw [List.filter_cons_of_neg (by simp [hline, Except.isOk, Except.toBool])]
        exact ih (number + 1)
  exact hlines 1 (programLines program)

namespace Wire.AssembleResponse

/-- Every text of a response is UTF-8. -/
structure InUtf8 (m : AssembleResponse) : Prop where
  listing : isUtf8 m.listing = true
  diagnostics : ∀ ds ∈ m.diagnostics, ∀ d ∈ ds, isUtf8 d.message = true

/-- The texts and the list of a response have lengths that a machine can count. -/
structure Fits (m : AssembleResponse) : Prop where
  listing : m.listing.length < 2 ^ 63
  count : ∀ ds ∈ m.diagnostics, ds.length < 2 ^ 63
  diagnostics : ∀ ds ∈ m.diagnostics, ∀ d ∈ ds, d.message.length < 2 ^ 63

theorem InUtf8.sendable {m : AssembleResponse} (h : m.InUtf8) (hfits : m.Fits)
    (hcount : ∀ ds ∈ m.diagnostics, ds.length ≤ maxElements) : m.Sendable where
  listing := ⟨h.listing, hfits.listing⟩
  count := hcount
  diagnostics ds hds d hd := ⟨⟨h.diagnostics ds hds d hd, hfits.diagnostics ds hds d hd⟩⟩

end Wire.AssembleResponse

/-- A check comes to the listing of a program without faulty lines, or to what is wrong
with them. -/
theorem check_cases {α : Type} (r : Registry α) (program : Bytes) :
    (validate r program = [] ∧ ∃ code, assemble r program = .ok code ∧ check program r =
      { valid := true, instructions := Int64.ofNat code.size, listing := listing r code }) ∨
    (validate r program ≠ [] ∧ check program r =
      { diagnostics := some ((validate r program).map .ofFailure) }) := by
  rw [check]
  rcases assemble_cases r program with ⟨code, hcode, hnone⟩ | ⟨e, rest, -, hsome⟩
  · rw [hnone, hcode]
    exact .inl ⟨rfl, code, rfl, rfl⟩
  · rw [hsome]
    exact .inr ⟨List.cons_ne_nil _ _, rfl⟩

/-- A text of newlines has a blank line for each of them. -/
theorem programLines_newlines (n : Nat) :
    programLines (List.replicate n 10) = List.replicate n [] := by
  have htext : (List.replicate n ([] : Bytes)).flatMap (· ++ [10]) = List.replicate n 10 := by
    induction n with
    | zero => rfl
    | succ n ih => simp [List.replicate_succ, ih]
  rw [programLines, ← htext]
  apply split_flatMap (by decide)
  intro line hline
  rw [List.eq_of_mem_replicate hline]
  exact List.not_mem_nil

theorem validate_newlines {α : Type} (r : Registry α) (n : Nat) :
    validate r (List.replicate n 10) = (List.range' 1 n).map LineError.empty.failure := by
  have hblank : assembleLine r [] = .error .empty := rfl
  have hvalidate : ∀ number, validateLines r number (List.replicate n []) =
      (List.range' number n).map LineError.empty.failure := by
    induction n with
    | zero => exact fun _ => rfl
    | succ n ih =>
      intro number
      rw [List.replicate_succ, validateLines, hblank, List.range'_succ, List.map_cons, ih]
  rw [validate, programLines_newlines, hvalidate]

/-- What a check comes to arrives exactly if its faulty lines are no more than a reader takes. -/
theorem decode_encode_check {program : Bytes} (hprogram : isUtf8 program = true)
    (hfits : (check program Registry.standard).Fits) :
    Wire.decode (Wire.encode (check program Registry.standard)) =
      if (faultyLines Registry.standard program).length ≤ maxElements then
        .ok (check program Registry.standard)
      else .error (.read .tooManyElements) := by
  rw [← length_validate]
  rcases check_cases Registry.standard program with ⟨hnone, code, -, hcheck⟩ | ⟨hsome, hcheck⟩
  · have hutf8 : (check program Registry.standard).InUtf8 := by
      rw [hcheck]
      refine ⟨isUtf8_listing code, ?_⟩
      rintro ds ⟨⟩
    have hsendable := hutf8.sendable hfits (by
      rw [hcheck]
      rintro ds ⟨⟩)
    rw [hnone, List.length_nil, if_pos (Nat.zero_le _), hsendable.travels.decode_encode (by decide),
      hcheck]
    rfl
  · have hutf8 : (check program Registry.standard).InUtf8 := by
      rw [hcheck]
      refine ⟨rfl, ?_⟩
      rintro ds ⟨⟩ d hd
      obtain ⟨e, he, rfl⟩ := List.mem_map.mp hd
      exact (inUtf8_of_mem_validate hprogram e he).diagnostic
    by_cases hcount : (validate Registry.standard program).length ≤ maxElements
    · have hsendable := hutf8.sendable hfits (by
        rw [hcheck]
        rintro ds ⟨⟩
        rwa [List.length_map])
      rw [if_pos hcount, hsendable.travels.decode_encode (by decide), hcheck]
      rw [Wire.AssembleResponse.delivered, if_neg (by simpa using hsome)]
    · rw [if_neg hcount]
      rw [hcheck] at hfits ⊢
      apply Wire.AssembleResponse.decode_encode_of_overlong hfits.listing rfl
      · rw [List.length_map]
        omega
      · exact hfits.count _ rfl

namespace Service

/-- The reply of a service over the standard instructions to a check of a program that is UTF-8 is
decoded from its bytes as it was sent if the program has at most as many faulty lines as a reader
takes elements, and cannot be decoded if it has more. -/
theorem decode_encode_assemble {s : Service Standard} {request : Wire.AssembleRequest}
    {response : Wire.AssembleResponse} (hregistry : s.worker.registry = .standard)
    (hprogram : isUtf8 request.program = true) (h : s.assemble request = .ok response)
    (hfits : response.Fits) :
    Wire.decode (Wire.encode response) =
      if (faultyLines Registry.standard request.program).length ≤ maxElements then .ok response
      else .error (.read .tooManyElements) := by
  have hcheck : response = check request.program Registry.standard := by
    unfold assemble Worker.ask at h
    rw [hregistry] at h
    split at h
    · cases h
    · exact (Except.ok.inj h).symm
  rw [hcheck] at hfits ⊢
  exact decode_encode_check hprogram hfits

/-- A line of one word that is not ASCII is reported as it stands. -/
theorem decode_encode_assemble_unknownName :
    let s : Service Standard := { worker := { registry := .standard } }
    let request : Wire.AssembleRequest := { program := utf8 "größe" }
    ∃ response, s.assemble request = .ok response ∧
      response.diagnostics = some [{ line := 1, message := utf8 "unknown instruction: größe" }] ∧
      Wire.decode (Wire.encode response) = .ok response := by
  intro s request
  have hlines : programLines request.program = [utf8 "größe"] := by
    rw [programLines_eq]
    decide
  have hvalidate : validate Registry.standard request.program =
      [(LineError.unknown (utf8 "größe")).failure 1] := by
    rw [validate, hlines]
    simp only [validateLines, assembleLine]
    rw [split_eq_splitOn (by decide)]
    decide
  have hfaulty : (faultyLines Registry.standard request.program).length ≤ maxElements := by
    rw [← length_validate, hvalidate]
    decide
  have hcheck : s.assemble request =
      .ok { diagnostics :=
        some [{ line := 1, message := utf8 "unknown instruction: größe" }] } := by
    show Except.mapError refuse (.ok (check request.program Registry.standard)) = _
    rw [check, hvalidate]
    rfl
  refine ⟨_, hcheck, rfl, ?_⟩
  have hfits : Wire.AssembleResponse.Fits
      { diagnostics := some [{ line := 1, message := utf8 "unknown instruction: größe" }] } := by
    refine ⟨by decide, by rintro ds ⟨⟩; decide, ?_⟩
    rintro ds ⟨⟩
    rw [List.forall_mem_singleton]
    decide
  have hutf8 : isUtf8 request.program = true := isUtf8_utf8 _
  have hreply := decode_encode_assemble rfl hutf8 hcheck hfits
  rwa [if_pos hfaulty] at hreply

/-- One diagnostic more than a reader takes, and the client gets none of them. -/
theorem decode_encode_assemble_blankLines :
    let s : Service Standard := { worker := { registry := .standard } }
    let request : Wire.AssembleRequest := { program := List.replicate 131073 10 }
    isUtf8 request.program = true ∧
    ∃ response, s.assemble request = .ok response ∧
      (Wire.decode (Wire.encode response) : Except DecodeError Wire.AssembleResponse) =
        .error (.read .tooManyElements) := by
  intro s request
  have hutf8 : isUtf8 request.program = true := isUtf8_replicate (by decide) _
  have hvalidate := validate_newlines Registry.standard 131073
  have hcount : (validate Registry.standard request.program).length = 131073 := by
    rw [hvalidate, List.length_map, List.length_range']
  have hne : validate Registry.standard request.program ≠ [] := List.ne_nil_of_length_pos (by omega)
  have hfits : (check request.program Registry.standard).Fits := by
    rcases check_cases Registry.standard request.program with ⟨hnone, -⟩ | ⟨-, hcheck⟩
    · exact absurd hnone hne
    · rw [hcheck]
      refine ⟨by decide, ?_, ?_⟩
      · rintro ds ⟨⟩
        rw [List.length_map]
        omega
      · rintro ds ⟨⟩ d hd
        obtain ⟨e, he, rfl⟩ := List.mem_map.mp hd
        rw [hvalidate] at he
        obtain ⟨number, -, rfl⟩ := List.mem_map.mp he
        show (utf8 "empty instruction").length < 2 ^ 63
        decide
  refine ⟨hutf8, check request.program Registry.standard, rfl, ?_⟩
  have hmany : ¬ (faultyLines Registry.standard request.program).length ≤ maxElements := by
    rw [← length_validate, hcount]
    decide
  rw [decode_encode_check hutf8 hfits, if_neg hmany]

end Service

end StackMachine
