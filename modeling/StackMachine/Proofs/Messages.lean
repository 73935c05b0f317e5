import StackMachine.Proofs.Records

/-!
# Messages that survive the wire

What is decoded from the bytes of a message is the message. For each message type, `Sendable` says
which of its values can be sent: those whose texts are legible and whose lists a reader takes. Two
things do not arrive as they were: the time of a run loses what is below a second, and an empty list
of diagnostics becomes a missing one. `delivered` says so for the types that hold them.
-/

namespace StackMachine.Wire

open Text Cbor

/-- A message travels within `n` levels and arrives as another. -/
def Travels {β : Type} [Message β] (n : Nat) (m m' : β) : Prop :=
  (Message.toItem m).Carries n Message.reading m'

theorem Travels.decode_encode {β : Type} [Message β] {n : Nat} {m m' : β} (h : Travels n m m')
    (hn : n ≤ maxDepth) : decode (encode m) = .ok m' :=
  Item.Carries.decode_write h hn

/-- A list that may be missing travels if its elements do. -/
theorem carries_listItem {β : Type} [Message β] {n : Nat} {xs : Option (List β)} {f : β → β}
    (hcount : ∀ l ∈ xs, l.length ≤ maxElements) (h : ∀ l ∈ xs, ∀ x ∈ l, Travels n x (f x)) :
    (listItem xs).Carries (n + 1) (.list Message.reading) (xs.map (List.map f)) := by
  cases xs with
  | none => exact Item.carries_null _
  | some l => exact Item.carries_list (hcount l rfl) (h l rfl)

theorem carries_listItem_self {β : Type} [Message β] {n : Nat} {xs : Option (List β)}
    (hcount : ∀ l ∈ xs, l.length ≤ maxElements) (h : ∀ l ∈ xs, ∀ x ∈ l, Travels n x x) :
    (listItem xs).Carries (n + 1) (.list Message.reading) xs := by
  have hlist : (listItem xs).Carries (n + 1) (.list Message.reading) (xs.map (List.map id)) :=
    carries_listItem hcount h
  rwa [List.map_id_fun, Option.map_id] at hlist

/-! ## Runs -/

namespace RunRequest

/-- A request for a run can be sent if its program is legible. -/
structure Sendable (m : RunRequest) : Prop where
  program : Legible m.program

/-- The fields of a request for a run. The switch for debugging is sent only where it is on, and the
limit only where there is one. -/
def passages {m : RunRequest} (h : m.Sendable) : List (Passage ({} : RunRequest) 0) :=
  [.text "program" (fun v m => { m with program := v }) h.program,
    .of "debug" .bool (fun v m => { m with debug := v }) m.debug
      (if m.debug then some (.bool true) else none)
      (by
        intro i hi
        split at hi
        · next hdebug =>
          cases hi
          rw [hdebug]
          exact Item.carries_bool true
        · cases hi)
      (by
        intro hnone
        split at hnone
        · cases hnone
        · next hdebug => rw [Bool.eq_false_iff.mpr hdebug]),
    .wordUnlessZero "max_steps" "int64" (fun v m => { m with maxSteps := v }) m.maxSteps rfl]

theorem Sendable.travels {m : RunRequest} (h : m.Sendable) : Travels 1 m m := by
  have hnames : Passage.Distinct ["program", "debug", "max_steps"] := by decide
  apply Passage.carries_record (passages h) hnames rfl
  simp [passages, Passage.Apart]

end RunRequest

namespace FaultInfo

/-- A fault can be sent if its kind and its message are legible. -/
structure Sendable (m : FaultInfo) : Prop where
  kind : Legible m.kind
  message : Legible m.message

/-- The fields of a fault. A line that is not known is left out. -/
def passages {m : FaultInfo} (h : m.Sendable) : List (Passage ({} : FaultInfo) 0) :=
  [.text "kind" (fun v m => { m with kind := v }) h.kind,
    .text "message" (fun v m => { m with message := v }) h.message,
    .word "pc" "int" (fun v m => { m with pc := v }) m.pc,
    .wordUnlessZero "line" "int" (fun v m => { m with line := v }) m.line rfl]

theorem Sendable.travels {m : FaultInfo} (h : m.Sendable) : Travels 1 m m := by
  have hnames : Passage.Distinct ["kind", "message", "pc", "line"] := by decide
  apply Passage.carries_record (passages h) hnames rfl
  simp [passages, Passage.Apart]

end FaultInfo

namespace RunResponse

/-- The answer to a run can be sent if its texts are legible and its fault, if there is one, can be
sent. -/
structure Sendable (m : RunResponse) : Prop where
  runId : Legible m.runId
  output : Legible m.output
  trace : Legible m.trace
  fault : ∀ f ∈ m.fault, f.Sendable

/-- The fields of the answer to a run. Its name, its trace and its fault are left out where there
are none. -/
def passages {m : RunResponse} (h : m.Sendable) : List (Passage ({} : RunResponse) 1) :=
  [.textUnlessEmpty "run_id" (fun v m => { m with runId := v }) h.runId rfl,
    .word "result" "int64" (fun v m => { m with result := v }) m.result,
    .text "output" (fun v m => { m with output := v }) h.output,
    .textUnlessEmpty "trace" (fun v m => { m with trace := v }) h.trace rfl,
    .word "steps" "int64" (fun v m => { m with steps := v }) m.steps,
    .of "fault" (.optional Message.reading) (fun v m => { m with fault := v }) m.fault
      (m.fault.map Message.toItem)
      (by
        intro i hi
        obtain ⟨f, hf, rfl⟩ := Option.map_eq_some_iff.mp hi
        have htravels := (h.fault f hf).travels
        refine ⟨htravels.plain, ?_⟩
        show some <$> Message.reading.read (Message.toItem f) = _
        rw [htravels.read, hf]
        rfl)
      (by
        intro hnone
        rw [Option.map_eq_none_iff.mp hnone])]

theorem Sendable.travels {m : RunResponse} (h : m.Sendable) : Travels 2 m m := by
  have hnames : Passage.Distinct ["run_id", "result", "output", "trace", "steps", "fault"] := by
    decide
  apply Passage.carries_record (passages h) hnames rfl
  simp [passages, Passage.Apart]

end RunResponse

/-! ## Assembling -/

namespace AssembleRequest

/-- A request to assemble can be sent if its program is legible. -/
structure Sendable (m : AssembleRequest) : Prop where
  program : Legible m.program

/-- The one field of a request to assemble. -/
def passages {m : AssembleRequest} (h : m.Sendable) : List (Passage ({} : AssembleRequest) 0) :=
  [.text "program" (fun v m => { m with program := v }) h.program]

theorem Sendable.travels {m : AssembleRequest} (h : m.Sendable) : Travels 1 m m := by
  have hnames : Passage.Distinct ["program"] := by decide
  apply Passage.carries_record (passages h) hnames rfl
  simp [passages]

end AssembleRequest

namespace Diagnostic

/-- A diagnostic can be sent if its message is legible. -/
structure Sendable (m : Diagnostic) : Prop where
  message : Legible m.message

/-- The fields of a diagnostic. -/
def passages {m : Diagnostic} (h : m.Sendable) : List (Passage ({} : Diagnostic) 0) :=
  [.word "line" "int" (fun v m => { m with line := v }) m.line,
    .text "message" (fun v m => { m with message := v }) h.message]

theorem Sendable.travels {m : Diagnostic} (h : m.Sendable) : Travels 1 m m := by
  have hnames : Passage.Distinct ["line", "message"] := by decide
  apply Passage.carries_record (passages h) hnames rfl
  simp [passages, Passage.Apart]

end Diagnostic

namespace AssembleResponse

/-- The answer to assembling can be sent if its listing is legible, a reader takes as many
diagnostics and each of them can be sent. -/
structure Sendable (m : AssembleResponse) : Prop where
  listing : Legible m.listing
  count : ∀ ds ∈ m.diagnostics, ds.length ≤ maxElements
  diagnostics : ∀ ds ∈ m.diagnostics, ∀ d ∈ ds, d.Sendable

/-- An empty list of diagnostics is left out, and what is left out is read as missing. -/
def delivered (m : AssembleResponse) : AssembleResponse :=
  { m with diagnostics := if m.diagnostics.getD [] = [] then none else m.diagnostics }

/-- The fields of the answer to assembling. The last one is read as `delivered` says. -/
def passages {m : AssembleResponse} (h : m.Sendable) : List (Passage ({} : AssembleResponse) 2) :=
  [.kept "valid" .bool (fun v m => { m with valid := v }) (Item.carries_bool m.valid),
    .word "instructions" "int" (fun v m => { m with instructions := v }) m.instructions,
    .textUnlessEmpty "listing" (fun v m => { m with listing := v }) h.listing rfl,
    .omitIf "diagnostics" (.list Message.reading) (fun v m => { m with diagnostics := v })
      (m.diagnostics.getD [] = []) (v := m.delivered.diagnostics)
      (by
        intro hsome
        rw [delivered, if_neg hsome]
        exact carries_listItem_self h.count fun ds hds d hd => (h.diagnostics ds hds d hd).travels)
      (by
        intro hempty
        rw [delivered, if_pos hempty])]

theorem Sendable.travels {m : AssembleResponse} (h : m.Sendable) : Travels 3 m m.delivered := by
  have hnames : Passage.Distinct ["valid", "instructions", "listing", "diagnostics"] := by decide
  apply Passage.carries_record (passages h) hnames rfl
  simp [passages, Passage.Apart]

/-- With more diagnostics than a reader takes, a response is refused as a whole. -/
theorem decode_encode_of_overlong {m : AssembleResponse} (hlisting : m.listing.length < 2 ^ 63)
    {ds : List Diagnostic} (hds : m.diagnostics = some ds) (hmany : maxElements < ds.length)
    (hcount : ds.length < 2 ^ 63) :
    (decode (encode m) : Except DecodeError AssembleResponse) =
      .error (.read .tooManyElements) := by
  have hne : m.diagnostics.getD [] ≠ [] := by
    rw [hds, Option.getD_some]
    exact List.ne_nil_of_length_pos (by omega)
  have hover : (listItem m.diagnostics).Overlong := by
    rw [hds]
    refine ⟨_, rfl, ?_, ?_⟩ <;> rw [List.length_map] <;> omega
  have hfields : Message.toItem m = record
      [always "valid" (.bool m.valid), always "instructions" (.ofWord m.instructions),
        unlessEmpty "listing" m.listing, always "diagnostics" (listItem m.diagnostics)] := by
    show record [_, _, _, (_, if m.diagnostics.getD [] = [] then none else _)] = _
    rw [if_neg hne]
    rfl
  have hnames : Passage.Distinct ["valid", "instructions", "listing", "diagnostics"] := by decide
  unfold encode
  rw [hfields]
  apply decode_record_of_overlong (n := 0) _ hnames rfl
  · simp only [List.forall_mem_cons]
    refine ⟨?_, ?_, ?_, ?_, List.forall_mem_nil _⟩
    · rintro i ⟨⟩
      exact .inl (.bool _)
    · rintro i ⟨⟩
      exact .inl (plain_ofWord _)
    · intro i hi
      dsimp only [unlessEmpty] at hi
      split at hi
      · cases hi
      · cases hi
        exact .inl (.text hlisting)
    · rintro i ⟨⟩
      exact .inr hover
  · exact ⟨always "diagnostics" (listItem m.diagnostics), by simp, _, rfl, hover⟩
  · decide

end AssembleResponse

/-! ## The instruction set -/

namespace InstructionsRequest

theorem travels (m : InstructionsRequest) : Travels 1 m m := by
  have hnames : Passage.Distinct [] := by decide
  exact Passage.carries_record ([] : List (Passage m 0)) hnames rfl .nil _

end InstructionsRequest

namespace InstructionInfo

/-- What is said about an instruction can be sent if its name and its description are legible. -/
structure Sendable (m : InstructionInfo) : Prop where
  name : Legible m.name
  doc : Legible m.doc

/-- The fields of what is said about an instruction. It may have no description. -/
def passages {m : InstructionInfo} (h : m.Sendable) : List (Passage ({} : InstructionInfo) 0) :=
  [.word "id" "int" (fun v m => { m with id := v }) m.id,
    .text "name" (fun v m => { m with name := v }) h.name,
    .textUnlessEmpty "doc" (fun v m => { m with doc := v }) h.doc rfl]

theorem Sendable.travels {m : InstructionInfo} (h : m.Sendable) : Travels 1 m m := by
  have hnames : Passage.Distinct ["id", "name", "doc"] := by decide
  apply Passage.carries_record (passages h) hnames rfl
  simp [passages, Passage.Apart]

end InstructionInfo

namespace InstructionsResponse

/-- A list of instructions can be sent if a reader takes as many and each of them can be sent. -/
structure Sendable (m : InstructionsResponse) : Prop where
  count : ∀ is ∈ m.instructions, is.length ≤ maxElements
  instructions : ∀ is ∈ m.instructions, ∀ i ∈ is, i.Sendable

/-- The one field of a list of instructions. -/
def passages {m : InstructionsResponse} (h : m.Sendable) :
    List (Passage ({} : InstructionsResponse) 2) :=
  [.kept "instructions" (.list Message.reading) (fun v m => { m with instructions := v })
    (carries_listItem_self h.count fun is his i hi => (h.instructions is his i hi).travels)]

theorem Sendable.travels {m : InstructionsResponse} (h : m.Sendable) : Travels 3 m m := by
  have hnames : Passage.Distinct ["instructions"] := by decide
  apply Passage.carries_record (passages h) hnames rfl
  simp [passages]

end InstructionsResponse

/-! ## Recorded runs -/

namespace HistoryRequest

/-- The one field of a request for recorded runs. Without a limit it is left out. -/
def passages (m : HistoryRequest) : List (Passage ({} : HistoryRequest) 0) :=
  [.wordUnlessZero "limit" "int" (fun v m => { m with limit := v }) m.limit rfl]

theorem travels (m : HistoryRequest) : Travels 1 m m := by
  have hnames : Passage.Distinct ["limit"] := by decide
  apply Passage.carries_record m.passages hnames rfl
  simp [passages]

end HistoryRequest

namespace RunSummary

/-- The summary of a run can be sent if its texts are legible. -/
structure Sendable (m : RunSummary) : Prop where
  id : Legible m.id
  programHash : Legible m.programHash
  output : Legible m.output
  faultKind : Legible m.faultKind

/-- Times are sent in whole seconds. -/
def delivered (m : RunSummary) : RunSummary := { m with createdAt := ⟨m.createdAt.sec, 0⟩ }

/-- The fields of the summary of a run. A run that ended well has no kind of fault. -/
def passages {m : RunSummary} (h : m.Sendable) : List (Passage ({} : RunSummary) 0) :=
  [.text "id" (fun v m => { m with id := v }) h.id,
    .kept "created_at" .instant (fun v m => { m with createdAt := v })
      (Item.carries_instant m.createdAt),
    .text "program_hash" (fun v m => { m with programHash := v }) h.programHash,
    .word "result" "int64" (fun v m => { m with result := v }) m.result,
    .text "output" (fun v m => { m with output := v }) h.output,
    .textUnlessEmpty "fault_kind" (fun v m => { m with faultKind := v }) h.faultKind rfl,
    .word "steps" "int64" (fun v m => { m with steps := v }) m.steps]

theorem Sendable.travels {m : RunSummary} (h : m.Sendable) : Travels 1 m m.delivered := by
  have hnames : Passage.Distinct
      ["id", "created_at", "program_hash", "result", "output", "fault_kind", "steps"] := by decide
  apply Passage.carries_record (passages h) hnames rfl
  simp [passages, Passage.Apart]

end RunSummary

namespace HistoryResponse

/-- A list of runs can be sent if a reader takes as many and each of them can be sent. -/
structure Sendable (m : HistoryResponse) : Prop where
  count : ∀ rs ∈ m.runs, rs.length ≤ maxElements
  runs : ∀ rs ∈ m.runs, ∀ r ∈ rs, r.Sendable

/-- The times of the runs are sent in whole seconds. -/
def delivered (m : HistoryResponse) : HistoryResponse :=
  { m with runs := m.runs.map (List.map RunSummary.delivered) }

/-- The one field of a list of runs. -/
def passages {m : HistoryResponse} (h : m.Sendable) : List (Passage ({} : HistoryResponse) 2) :=
  [.kept "runs" (.list Message.reading) (fun v m => { m with runs := v })
    (carries_listItem h.count fun rs hrs r hr => (h.runs rs hrs r hr).travels)]

theorem Sendable.travels {m : HistoryResponse} (h : m.Sendable) : Travels 3 m m.delivered := by
  have hnames : Passage.Distinct ["runs"] := by decide
  apply Passage.carries_record (passages h) hnames rfl
  simp [passages]

end HistoryResponse

/-! ## All messages -/

/-- Every message that can be sent is decoded from its bytes, as it was but for what `delivered`
says. -/
theorem decode_encode_of_sendable :
    (∀ m : RunRequest, m.Sendable → decode (encode m) = .ok m) ∧
    (∀ m : RunResponse, m.Sendable → decode (encode m) = .ok m) ∧
    (∀ m : FaultInfo, m.Sendable → decode (encode m) = .ok m) ∧
    (∀ m : AssembleRequest, m.Sendable → decode (encode m) = .ok m) ∧
    (∀ m : AssembleResponse, m.Sendable → decode (encode m) = .ok m.delivered) ∧
    (∀ m : Diagnostic, m.Sendable → decode (encode m) = .ok m) ∧
    (∀ m : InstructionsRequest, decode (encode m) = .ok m) ∧
    (∀ m : InstructionsResponse, m.Sendable → decode (encode m) = .ok m) ∧
    (∀ m : InstructionInfo, m.Sendable → decode (encode m) = .ok m) ∧
    (∀ m : HistoryRequest, decode (encode m) = .ok m) ∧
    (∀ m : HistoryResponse, m.Sendable → decode (encode m) = .ok m.delivered) ∧
    (∀ m : RunSummary, m.Sendable → decode (encode m) = .ok m.delivered) := by
  have hone : 1 ≤ maxDepth := by decide
  have htwo : 2 ≤ maxDepth := by decide
  have hthree : 3 ≤ maxDepth := by decide
  exact ⟨fun _ h => h.travels.decode_encode hone, fun _ h => h.travels.decode_encode htwo,
    fun _ h => h.travels.decode_encode hone, fun _ h => h.travels.decode_encode hone,
    fun _ h => h.travels.decode_encode hthree, fun _ h => h.travels.decode_encode hone,
    fun m => m.travels.decode_encode hone, fun _ h => h.travels.decode_encode hthree,
    fun _ h => h.travels.decode_encode hone, fun m => m.travels.decode_encode hone,
    fun _ h => h.travels.decode_encode hthree, fun _ h => h.travels.decode_encode hone⟩

theorem legible_nil : Legible [] := ⟨isUtf8_nil, by decide⟩

/-- A fault that holds nothing is told from none, and half a second before 1970 is a second before
it. -/
theorem decode_encode_emptyFault_earlyRun :
    decode (encode ({ fault := some {} } : RunResponse)) =
      .ok ({ fault := some {} } : RunResponse) ∧
    decode (encode
      ({ runs := some [{ id := utf8 "ü", createdAt := ⟨-1, 500000000⟩ }, {}] } : HistoryResponse)) =
      .ok ({ runs := some [{ id := utf8 "ü", createdAt := ⟨-1, 0⟩ }, {}] } : HistoryResponse) := by
  obtain ⟨-, hresponse, -, -, -, -, -, -, -, -, hhistory, -⟩ := decode_encode_of_sendable
  constructor
  · apply hresponse
    refine ⟨legible_nil, legible_nil, legible_nil, ?_⟩
    rintro f ⟨⟩
    exact ⟨legible_nil, legible_nil⟩
  · apply hhistory
    refine ⟨by rintro rs ⟨⟩; decide, ?_⟩
    rintro rs ⟨⟩
    have hid : Legible (utf8 "ü") := ⟨isUtf8_utf8 "ü", by decide⟩
    rw [List.forall_mem_cons, List.forall_mem_singleton]
    exact ⟨⟨hid, legible_nil, legible_nil, legible_nil⟩,
      ⟨legible_nil, legible_nil, legible_nil, legible_nil⟩⟩

end StackMachine.Wire
