import StackMachine.Cli.Needs
import StackMachine.Proofs.Relisting
import StackMachine.Proofs.Replies

/-!
# One verdict on every program

Whether a program is in order is decided in several places: assembling stops at the first wrong
line, validating goes through all of them, and the command and the service each call one or the
other or both. `Registry.AgreesOn` says that assembling and validating cannot come to different
verdicts on a text, and what a validation reports: one fault for each line that does not assemble on
its own. It holds over every registry (`Registry.agreesOn`).

From this, over the standard instructions, everybody who asks about a program is told the same
(`agreesOn_and_shared`): whoever asks the command for a listing, the service for a check, or the
service for a run. A run that fails never blames a line (`State.Fails.line_eq_zero`), so a fault
that does blame one is always the assembler's.
-/

namespace StackMachine

open Text

variable {α : Type} {r : Registry α}

/-! ## Assembling and validating -/

/-- The failure says that the line with this number, counted from one, is no instruction. -/
def Failure.Blames (e : Failure) (number : Nat) : Prop :=
  ∃ f cause, e.fault? = some (f, cause) ∧ f.kind = .invalidInstruction ∧ f.pc = -1 ∧
    f.line.toInt = number

/-- The numbers, counted from one, of the lines that do not assemble on their own. -/
def Registry.refusedLines (r : Registry α) (program : Bytes) : List Nat :=
  (((textLines program).zipIdx 1).filter fun x => !(assemble r (line x.1)).isOk).map (·.2)

/-- Assembling and validating agree on a program. -/
structure Registry.AgreesOn (r : Registry α) (program : Bytes) : Prop where
  /-- Nothing is reported exactly if the program assembles. -/
  clean : validate r program = [] ↔ ∃ code, assemble r program = .ok code
  /-- What assembling reports is the first that validating reports. -/
  first : ∀ e, assemble r program = .error e → (validate r program).head? = some e
  /-- There is one report for each line that does not assemble on its own, and it blames
  this line. -/
  each : List.Forall₂ Failure.Blames (validate r program) (r.refusedLines program)
  /-- The lines are reported in order. -/
  ordered : (r.refusedLines program).Pairwise (· < ·)
  /-- They are lines of the program. -/
  within : ∀ number ∈ r.refusedLines program, 1 ≤ number ∧ number ≤ (textLines program).length
  /-- A program on which nothing was reported is not refused after all. -/
  settled : ¬ (validate r program = [] ∧ ∃ e, assemble r program = .error e)

/-- A line assembles on its own exactly if it is the line of an instruction. -/
theorem isOk_assemble_line {l : Bytes} (h : 10 ∉ l) :
    (assemble r (line l)).isOk = (assembleLine r l).isOk := by
  -- without a newline of its own, the text is one line
  have hlines : programLines (line l) = [l] := by
    have hsplit := split_flatMap (d := 10) (by decide) (List.forall_mem_singleton.mpr h)
    rwa [List.flatMap_singleton] at hsplit
  rw [assemble, hlines, assembleLines]
  cases assembleLine r l <;> rfl

/-- A wrong line is blamed by the fault that reports it. -/
theorem LineError.blames (wrong : LineError) {number : Nat} (h : number < 2 ^ 63) :
    (wrong.failure number).Blames number := by
  obtain ⟨cause, hfault⟩ := wrong.fault?_failure number
  exact ⟨_, cause, hfault, rfl, rfl, Int64.toInt_ofNat_of_lt h⟩

/-- Validating lines reports each one that is no instruction, and counts from the number it is
given. -/
theorem forall₂_blames_validateLines (r : Registry α) {number : Nat} {lines : List Bytes}
    (h : number + lines.length ≤ 2 ^ 63) :
    List.Forall₂ Failure.Blames (validateLines r number lines)
      (((lines.zipIdx number).filter fun x => !(assembleLine r x.1).isOk).map (·.2)) := by
  induction lines generalizing number with
  | nil => exact .nil
  | cons line lines ih =>
    rw [List.length_cons] at h
    have hrest := @ih (number + 1) (by omega)
    rw [validateLines, List.zipIdx_cons, List.filter_cons]
    cases assembleLine r line with
    | error wrong => exact .cons (wrong.blames (by omega)) hrest
    | ok i => exact hrest

theorem Registry.refusedLines_eq (r : Registry α) (program : Bytes) :
    r.refusedLines program =
      (((textLines program).zipIdx 1).filter fun x => !(assembleLine r x.1).isOk).map (·.2) := by
  rw [refusedLines]
  congr 1
  apply List.filter_congr
  intro x hx
  have hline : x.1 ∈ programLines program := by
    rw [programLines_eq]
    exact List.fst_mem_of_mem_zipIdx hx
  rw [isOk_assemble_line (not_mem_of_mem_split (by decide) hline)]

/-- The numbers of the lines that are refused are among those of all lines, in the same order. -/
theorem Registry.refusedLines_sublist (r : Registry α) (program : Bytes) :
    (r.refusedLines program).Sublist (List.range' 1 (textLines program).length) := by
  have hnumbers : ((textLines program).zipIdx 1).map (·.2) =
      List.range' 1 (textLines program).length :=
    List.zipIdx_map_snd 1 (textLines program)
  rw [← hnumbers]
  exact List.filter_sublist.map _

/-- Nothing is reported exactly if the program assembles. -/
theorem validate_eq_nil_iff (r : Registry α) (program : Bytes) :
    validate r program = [] ↔ ∃ code, assemble r program = .ok code := by
  rcases assemble_cases r program with ⟨code, hcode, hnone⟩ | ⟨e, rest, he, hsome⟩
  · exact iff_of_true hnone ⟨code, hcode⟩
  · rw [he, hsome]
    refine iff_of_false (List.cons_ne_nil _ _) ?_
    rintro ⟨code, hcode⟩
    cases hcode

/-- Assembling and validating agree on every program. A line number is a word, so a program has
fewer than `2 ^ 63` lines. -/
theorem Registry.agreesOn (r : Registry α) {program : Bytes}
    (h : (textLines program).length < 2 ^ 63) :
    r.AgreesOn program where
  clean := validate_eq_nil_iff r program
  first := by
    intro e he
    rcases assemble_cases r program with ⟨code, hcode, -⟩ | ⟨e', rest, he', hsome⟩
    · rw [hcode] at he
      cases he
    · rw [he', Except.error.injEq] at he
      rw [hsome, he]
      rfl
  each := by
    rw [refusedLines_eq, validate, programLines_eq]
    exact forall₂_blames_validateLines r (by omega)
  ordered := List.Pairwise.sublist (r.refusedLines_sublist program) List.pairwise_lt_range'
  within number hnumber := by
    have hmem := (r.refusedLines_sublist program).mem hnumber
    rw [List.mem_range'_1] at hmem
    omega
  settled := by
    rintro ⟨hnone, e, he⟩
    obtain ⟨code, hcode⟩ := (validate_eq_nil_iff r program).mp hnone
    rw [hcode] at he
    cases he

/-! ## Checking -/

/-- A check of a program that assembles lists it. -/
theorem check_of_ok {program : Bytes} {code : Code} (h : assemble r program = .ok code) :
    check program r =
      { valid := true, instructions := Int64.ofNat code.size, listing := listing r code } := by
  rw [check, (validate_eq_nil_iff r program).mpr ⟨code, h⟩, h]

/-- A check of a program that does not assemble first says what assembling reports. -/
theorem check_of_error {program : Bytes} {e : Failure} (h : assemble r program = .error e) :
    ∃ rest, check program r = { diagnostics := some (.ofFailure e :: rest) } := by
  rcases assemble_cases r program with ⟨code, hcode, -⟩ | ⟨e', rest, he, hsome⟩
  · rw [hcode] at h
    cases h
  · obtain rfl := Except.error.inj (he.symm.trans h)
    rw [check, hsome]
    exact ⟨_, rfl⟩

/-! ## Words of a failure -/

/-- A failure is told alike as the fault of a run and as a diagnostic. -/
theorem Wire.ofFailure_alike (e : Failure) :
    (Wire.FaultInfo.ofFailure e).line = (Wire.Diagnostic.ofFailure e).line ∧
      (Wire.FaultInfo.ofFailure e).message = (Wire.Diagnostic.ofFailure e).message := by
  rw [Wire.FaultInfo.ofFailure, Wire.Diagnostic.ofFailure]
  cases e.fault? with
  | none => exact ⟨rfl, rfl⟩
  | some x => exact ⟨rfl, rfl⟩

/-- A failure that blames a line has its number in the fault of a run. -/
theorem Failure.Blames.line {e : Failure} {number : Nat} (h : e.Blames number) :
    (Wire.FaultInfo.ofFailure e).line.toInt = number := by
  obtain ⟨f, cause, hfault, -, -, hline⟩ := h
  rw [Wire.FaultInfo.ofFailure, hfault]
  exact hline

/-- A run that fails blames no line. -/
theorem State.Fails.line_eq_zero {code : Code} {s : State Standard} {e : Failure}
    (h : s.Fails code e) :
    (Wire.FaultInfo.ofFailure e).line = 0 := by
  cases h with
  | stopped hready =>
    rcases ready_error_cases hready with ⟨-, rfl⟩ | ⟨-, -, rfl⟩ | ⟨-, -, r, -, rfl⟩
    · rfl
    · rfl
    · rfl
  | unregistered i => rfl
  | short a => rfl
  | divisor => rfl

/-! ## Running -/

/-- Executing a program that does not assemble answers with what assembling reports. -/
theorem execute_of_error {program : Bytes} {e : Failure}
    (h : assemble Registry.standard program = .error e) (debug : Bool) (limit : Int64)
    (signals : Signals) (fuel : Nat) :
    execute program debug limit signals fuel Registry.standard =
      some (.ok { fault := some (.ofFailure e) }, .standard) := by
  rw [execute, h]

/-- Executing a program that assembles does not blame a line, whatever comes of it. -/
theorem line_of_execute {program : Bytes} {code : Code}
    (hcode : assemble Registry.standard program = .ok code) {debug : Bool} {limit : Int64}
    {signals : Signals} {fuel : Nat} {reply : Wire.RunResponse} {later : Registry Standard}
    (h : execute program debug limit signals fuel Registry.standard = some (.ok reply, later)) :
    ∀ info ∈ reply.fault, info.line = 0 := by
  rw [execute, hcode] at h
  dsimp only at h
  split at h
  · cases h
  · cases h
  · next ending t _ hrun =>
    obtain rfl := Except.ok.inj (Prod.mk.inj (Option.some.inj h)).1
    intro info hinfo
    rcases State.ending_of_run hrun with ⟨v, rfl⟩ | ⟨e, u, rfl, hfails⟩
    · cases hinfo
    · obtain rfl := Option.some.inj hinfo
      exact hfails.line_eq_zero

/-! ## Listing -/

namespace Cli

/-- The command line asks for the listing of a program: it is understood, it asks for nothing that
goes before a listing, and the manifest and the program can be read. -/
def AsksToList (arguments : List Bytes) (s : Surroundings) (program : Bytes) : Prop :=
  ∃ o operand m, request? arguments = some (o, operand) ∧
    o.disasm = true ∧ o.ops = false ∧ o.lsp = false ∧ o.serve = false ∧ o.history ≤ 0 ∧
    configure o s.files = .ok m ∧ readProgram operand s (openLog m s.files) = .ok program

/-- A command line that is understood is carried out. -/
theorem command_of_request? {arguments : List Bytes} {o : Options} {operand : Bytes}
    (h : request? arguments = some (o, operand)) (s : Surroundings) :
    command arguments s = perform o operand s := by
  rw [request?] at h
  rw [command]
  split at h
  · next hparsed =>
    obtain ⟨rfl, rfl⟩ := Prod.mk.inj (Option.some.inj h)
    rw [hparsed]
  · next hparsed =>
    obtain ⟨rfl, rfl⟩ := Prod.mk.inj (Option.some.inj h)
    rw [hparsed]
  · cases h

/-- A command that is asked for the listing of a program prints it or what is wrong with
its lines. -/
theorem AsksToList.command {arguments : List Bytes} {s : Surroundings} {program : Bytes}
    (h : AsksToList arguments s program) :
    ∃ files, Cli.command arguments s = disassemble program files := by
  obtain ⟨o, operand, m, hrequest, hdisasm, hops, hlsp, hserve, hhistory, hm, hprogram⟩ := h
  have hnone : ¬ 0 < o.history := Int64.not_lt.mpr hhistory
  refine ⟨openLog m s.files, ?_⟩
  rw [command_of_request? hrequest, perform, hm]
  simp only [hops, hlsp, hserve, hnone, hprogram, hdisasm, Bool.false_eq_true, if_false, if_true]

/-- Listing a program succeeds exactly if a check finds it valid, and prints what the
check lists. -/
theorem disassemble_check (program : Bytes) (files : FileSystem) :
    ∃ report, disassemble program files = .report report ∧
      (report.code = 0 ↔ (check program Registry.standard).valid = true) ∧
      report.stdout = (check program Registry.standard).listing := by
  rw [disassemble, check]
  rcases assemble_cases Registry.standard program with ⟨code, hcode, hnone⟩ | ⟨e, rest, -, hsome⟩
  · rw [hnone, hcode]
    exact ⟨_, rfl, iff_of_true rfl rfl, rfl⟩
  · rw [hsome]
    exact ⟨_, rfl, iff_of_false Nat.one_ne_zero Bool.false_ne_true, rfl⟩

end Cli

/-! ## One verdict -/

/-- A check of a program over the standard instructions counts the lines of its listing. -/
theorem instructions_check {program : Bytes} (h : (textLines program).length < 2 ^ 63)
    (hvalid : (check program Registry.standard).valid = true) :
    (check program Registry.standard).instructions.toInt =
      (textLines (check program Registry.standard).listing).length := by
  cases hassemble : assemble Registry.standard program with
  | error e =>
    obtain ⟨rest, hcheck⟩ := check_of_error hassemble
    rw [hcheck] at hvalid
    cases hvalid
  | ok code =>
    -- each line of the program became one instruction, and each instruction one line of the listing
    have hsize : (textLines program).length = code.size :=
      (forall₂_spells_of_assemble Registry.standard_reachable hassemble).length_eq
    have hshows := exists_shows_of_assemble Registry.standard_reachable (by decide) hassemble
    rw [check_of_ok hassemble, textLines_listing hshows, List.length_map, List.length_zipIdx,
      Array.length_toList]
    exact Int64.toInt_ofNat_of_lt (hsize ▸ h)

/-- The response to a check of a program says what everybody else is told who asks about the
program. -/
structure Wire.AssembleResponse.Shared (response : AssembleResponse) (program : Bytes) : Prop where
  /-- A command that is asked for a listing succeeds exactly if the program is valid, and prints the
  same listing. -/
  listed : ∀ arguments s, Cli.AsksToList arguments s program →
    ∃ report, Cli.command arguments s = .report report ∧ (report.code = 0 ↔ response.valid = true) ∧
      (response.valid = true → report.stdout = response.listing)
  /-- The listing has a line for each instruction. -/
  counted : response.valid = true →
    response.instructions.toInt = (textLines response.listing).length
  /-- A run is answered with a fault that blames a line exactly if the program is not valid. -/
  blamed : ∀ debug limit signals fuel answer later,
    execute program debug limit signals fuel Registry.standard = some (answer, later) →
    ∃ reply, answer = .ok reply ∧ ((∃ info ∈ reply.fault, 0 < info.line) ↔ response.valid = false)
  /-- Such a run is always answered, and its fault says the same as the first diagnostic. -/
  refused : response.valid = false → ∃ info first rest,
    response.diagnostics = some (first :: rest) ∧ info.line = first.line ∧
    info.message = first.message ∧
    ∀ debug limit signals fuel, execute program debug limit signals fuel Registry.standard =
      some (.ok { fault := some info }, .standard)

/-- What assembling reports blames a line. -/
theorem line_pos_of_assemble {program : Bytes} (h : (textLines program).length < 2 ^ 63)
    {e : Failure} (he : assemble r program = .error e) : 0 < (Wire.FaultInfo.ofFailure e).line := by
  have hagrees := r.agreesOn h
  obtain ⟨rest, hvalidate⟩ := List.head?_eq_some_iff.mp (hagrees.first e he)
  have heach := hagrees.each
  rw [hvalidate, List.forall₂_cons_left_iff] at heach
  obtain ⟨number, numbers, hblames, -, hnumbers⟩ := heach
  have hpos := (hagrees.within number (hnumbers ▸ List.mem_cons_self)).1
  rw [Int64.lt_iff_toInt_lt, hblames.line]
  exact Int.natCast_pos.mpr hpos

/-- What a check comes to is what everybody is told. -/
theorem shared_check {program : Bytes} (h : (textLines program).length < 2 ^ 63) :
    (check program Registry.standard).Shared program where
  listed arguments s hasks := by
    obtain ⟨files, hcommand⟩ := hasks.command
    obtain ⟨report, hreport, hcode, hstdout⟩ := Cli.disassemble_check program files
    exact ⟨report, hcommand.trans hreport, hcode, fun _ => hstdout⟩
  counted := instructions_check h
  blamed debug limit signals fuel answer later hexecute := by
    obtain ⟨-, reply, rfl, -⟩ := execute_standard hexecute
    refine ⟨reply, rfl, ?_⟩
    cases hassemble : assemble Registry.standard program with
    | error e =>
      obtain ⟨rest, hcheck⟩ := check_of_error hassemble
      rw [execute_of_error hassemble] at hexecute
      obtain rfl := Except.ok.inj (Prod.mk.inj (Option.some.inj hexecute)).1
      rw [hcheck]
      exact iff_of_true ⟨_, rfl, line_pos_of_assemble h hassemble⟩ rfl
    | ok code =>
      -- the run may still fail, but then no line is to blame
      rw [check_of_ok hassemble]
      refine iff_of_false ?_ Bool.noConfusion
      rintro ⟨info, hinfo, hpos⟩
      rw [line_of_execute hassemble hexecute info hinfo] at hpos
      exact Int64.lt_irrefl hpos
  refused hinvalid := by
    cases hassemble : assemble Registry.standard program with
    | error e =>
      obtain ⟨rest, hcheck⟩ := check_of_error hassemble
      obtain ⟨hline, hmessage⟩ := Wire.ofFailure_alike e
      rw [hcheck]
      exact ⟨.ofFailure e, _, rest, rfl, hline, hmessage, execute_of_error hassemble⟩
    | ok code =>
      rw [check_of_ok hassemble] at hinvalid
      cases hinvalid

/-- Assembling and validating agree on every program over every registry. Over the standard
instructions, whoever asks for the listing of a program, for a check or for a run gets the same
verdict, and is told the same line and the same message. A line number is a word, so the program has
fewer than `2 ^ 63` lines. -/
theorem agreesOn_and_shared (program : Bytes) (hlines : (textLines program).length < 2 ^ 63) :
    (∀ {α : Type} (r : Registry α), r.AgreesOn program) ∧
    ∀ service : Service Standard, service.worker.registry = .standard →
      service.worker.stopped = false →
      ∃ response, service.assemble { program } = .ok response ∧ response.Shared program := by
  refine ⟨fun r => r.agreesOn hlines, ?_⟩
  intro service hregistry hworks
  refine ⟨check program Registry.standard, ?_, shared_check hlines⟩
  rw [Service.assemble, Worker.ask, hregistry, hworks]
  rfl

/-- The second line is a name that nobody registered: the service, the command and a run all refuse
the program, and the run blames this line. -/
theorem agreesOn_and_shared_unknownLine :
    let program := utf8 "EXIT\nTURN"
    let service : Service Standard := { worker := { registry := .standard } }
    let s : Cli.Surroundings :=
      { files := {}, stdin := .ok program, stamp := ⟨utf8 "run-1", 0⟩, fuel := 0 }
    ∃ response report info, service.assemble { program } = .ok response ∧ response.valid = false ∧
      Cli.command [utf8 "-disasm"] s = .report report ∧ report.code ≠ 0 ∧
      execute program false 0 (fun _ => none) 0 Registry.standard =
        some (.ok { fault := some info }, .standard) ∧
      info.line = 2 ∧ response.diagnostics = some [{ line := 2, message := info.message }] := by
  intro program service s
  have hlines : textLines program = [utf8 "EXIT", utf8 "TURN"] := by decide
  have hvalidate : validate Registry.standard program =
      [(LineError.unknown (utf8 "TURN")).failure 2] := by
    rw [validate, programLines_eq, hlines]
    simp only [validateLines, assembleLine]
    rw [split_eq_splitOn (by decide), split_eq_splitOn (by decide)]
    decide
  have hasks : Cli.AsksToList [utf8 "-disasm"] s program := by
    have hconfigure : (Cli.configure { disasm := true } s.files).isOk = true := by decide +kernel
    cases hm : Cli.configure { disasm := true } s.files with
    | error e =>
      rw [hm] at hconfigure
      cases hconfigure
    | ok m => exact ⟨{ disasm := true }, [], m, rfl, rfl, rfl, rfl, rfl, by decide, hm, rfl⟩
  obtain ⟨-, hservice⟩ := agreesOn_and_shared program (by rw [hlines]; decide)
  obtain ⟨response, hresponse, hshared⟩ := hservice service rfl rfl
  have hcheck : response =
      { diagnostics := some [.ofFailure ((LineError.unknown (utf8 "TURN")).failure 2)] } := by
    have hasked : service.assemble { program } = .ok (check program Registry.standard) := rfl
    rw [hasked, check, hvalidate] at hresponse
    exact (Except.ok.inj hresponse).symm
  have hinvalid : response.valid = false := by rw [hcheck]
  obtain ⟨report, hreport, hcode, -⟩ := hshared.listed _ s hasks
  obtain ⟨info, first, rest, hdiagnostics, hline, hmessage, hexecute⟩ := hshared.refused hinvalid
  have hfirst : first = .ofFailure ((LineError.unknown (utf8 "TURN")).failure 2) ∧ rest = [] := by
    rw [hcheck, Option.some.injEq, List.cons.injEq] at hdiagnostics
    exact ⟨hdiagnostics.1.symm, hdiagnostics.2.symm⟩
  obtain ⟨rfl, rfl⟩ := hfirst
  refine ⟨response, report, info, hresponse, hinvalid, hreport, ?_, hexecute _ _ _ _, hline, ?_⟩
  · rw [ne_eq, hcode, hinvalid]
    exact Bool.false_ne_true
  · rw [hdiagnostics, hmessage]
    rfl

end StackMachine
