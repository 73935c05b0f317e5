import StackMachine.Wire.Message
import StackMachine.Listing
import StackMachine.Proofs.Assembling
import StackMachine.Proofs.Characters
import StackMachine.Proofs.Dispatch
import StackMachine.Proofs.Entry

/-!
# What is reported is UTF-8

Reports mix fixed words, numbers, names of instructions, characters that a program writes and pieces
cut out of its text. All of these are UTF-8 when the text of the program is: cutting at a newline or
a blank never cuts through a character, what is quoted is escaped, and a value that codes for no
character is written as the replacement character.

A failure is followed along its chain (`Failure.InUtf8`), a run from turn to turn (`State.Spoken`).
-/

namespace StackMachine

open Text

/-! ## Failures -/

@[simp]
theorem FaultKind.isUtf8_name (k : FaultKind) : isUtf8 k.name = true := by
  have hnamed : ∀ p ∈ named, isUtf8 p.2 = true := by simp [named]
  unfold name
  split
  · next hfind => exact hnamed _ (List.mem_of_find?_eq_some hfind)
  · simp

theorem Fault.isUtf8_message {f : Fault} (h : isUtf8 f.msg = true) : isUtf8 f.message = true := by
  unfold message
  split <;> split <;> simp [h]

@[simp]
theorem Interrupt.isUtf8_message (i : Interrupt) : isUtf8 i.message = true := by
  cases i <;> exact isUtf8_utf8 _

@[simp]
theorem Numeral.Error.isUtf8_message (e : Numeral.Error) : isUtf8 e.message = true := by
  have hreason : isUtf8 e.reason.message = true := by cases e.reason <;> exact isUtf8_utf8 _
  simp [message, hreason]

/-- Every text along the chain of a failure is UTF-8. -/
def Failure.InUtf8 : Failure → Prop
  | fault f => isUtf8 f.msg = true
  | faultBecause f cause => isUtf8 f.msg = true ∧ cause.InUtf8
  | text msg => isUtf8 msg = true
  | wrap before after inner => isUtf8 before = true ∧ isUtf8 after = true ∧ inner.InUtf8
  | kind _ | numeral _ | interrupt _ | stepLimit => True

namespace Failure.InUtf8

theorem message {e : Failure} (h : e.InUtf8) : isUtf8 e.message = true := by
  induction e with
  | fault f => exact f.isUtf8_message h
  | faultBecause f cause ih => simp [Failure.message, f.isUtf8_message h.1, ih h.2]
  | kind k => exact k.isUtf8_name
  | numeral e => exact e.isUtf8_message
  | text msg => exact h
  | interrupt i => exact i.isUtf8_message
  | stepLimit => exact isUtf8_utf8 _
  | wrap before after inner ih => simp [Failure.message, h.1, h.2.1, ih h.2.2]

/-- The outermost fault of such a failure is worded in UTF-8, and so is its cause. -/
theorem faultMessage {e : Failure} (h : e.InUtf8) {f : Fault} {cause : Option Failure}
    (hfault : e.fault? = some (f, cause)) : isUtf8 (Wire.faultMessage f cause) = true := by
  induction e with
  | fault g =>
    obtain ⟨rfl, rfl⟩ := Prod.mk.inj (Option.some.inj hfault)
    exact h
  | faultBecause g inner =>
    obtain ⟨rfl, rfl⟩ := Prod.mk.inj (Option.some.inj hfault)
    simp [Wire.faultMessage, h.1, h.2.message]
  | wrap before after inner ih => exact ih h.2.2 hfault
  | kind | numeral | text | interrupt | stepLimit => cases hfault

/-- A failure as a message is worded in UTF-8. -/
theorem faultInfo {e : Failure} (h : e.InUtf8) :
    isUtf8 (Wire.FaultInfo.ofFailure e).kind = true ∧
    isUtf8 (Wire.FaultInfo.ofFailure e).message = true := by
  unfold Wire.FaultInfo.ofFailure
  split
  · next f cause hfault => exact ⟨f.kind.isUtf8_name, h.faultMessage hfault⟩
  · refine ⟨?_, h.message⟩
    show isUtf8 (Wire.abortKind e) = true
    unfold Wire.abortKind
    split
    · exact isUtf8_utf8 _
    · split <;> exact isUtf8_utf8 _

theorem diagnostic {e : Failure} (h : e.InUtf8) :
    isUtf8 (Wire.Diagnostic.ofFailure e).message = true := by
  unfold Wire.Diagnostic.ofFailure
  split
  · next f cause hfault => exact h.faultMessage hfault
  · exact h.message

end Failure.InUtf8

/-! ## Assembling -/

section

variable {α : Type} {r : Registry α}

/-- A wrong line is reported in UTF-8 if it is UTF-8. -/
theorem inUtf8_of_assembleLine {line : Bytes} (hline : isUtf8 line = true) {e : LineError}
    (h : assembleLine r line = .error e) (number : Nat) : (e.failure number).InUtf8 := by
  have hwords : ∀ word ∈ split line 32, isUtf8 word = true :=
    fun word => isUtf8_of_mem_split (by decide) hline
  have hblank : ascii ' ' = 32 := rfl
  rw [assembleLine, hblank] at h
  rcases hsplit : split line 32 with _ | ⟨name, _ | ⟨argument, _ | ⟨extra, rest⟩⟩⟩
  · rw [hsplit] at h
    obtain rfl := Except.error.inj h
    exact isUtf8_utf8 _
  · rw [hsplit] at h hwords
    have hname : isUtf8 name = true := hwords name (by simp)
    dsimp only at h
    split at h
    · obtain rfl := Except.error.inj h
      exact isUtf8_append (isUtf8_utf8 _) hname
    · cases h
  · rw [hsplit] at h hwords
    have hname : isUtf8 name = true := hwords name (by simp)
    have hargument : isUtf8 argument = true := hwords argument (by simp)
    dsimp only at h
    split at h
    · obtain rfl := Except.error.inj h
      exact isUtf8_append (isUtf8_utf8 _) hname
    · split at h
      · next cause hparse =>
        obtain rfl := Except.error.inj h
        -- the cause quotes the argument as it was given
        have htext : cause.text = argument := by
          unfold Numeral.parse at hparse
          cases hread : Numeral.read argument with
          | error reason =>
            rw [hread] at hparse
            rw [← Except.error.inj hparse]
          | ok v =>
            rw [hread] at hparse
            cases hparse
        refine ⟨?_, trivial⟩
        simp [LineError.fault, LineError.message, hname, htext, hargument]
      · cases h
  · rw [hsplit] at h
    obtain rfl := Except.error.inj h
    exact isUtf8_append (isUtf8_utf8 _) hline

theorem isUtf8_of_mem_programLines {program line : Bytes} (h : isUtf8 program = true)
    (hline : line ∈ programLines program) : isUtf8 line = true :=
  isUtf8_of_mem_split (by decide) h hline

theorem inUtf8_of_assembleLines {number : Nat} {lines : List Bytes}
    (hlines : ∀ line ∈ lines, isUtf8 line = true) {e : Failure}
    (h : assembleLines r number lines = .error e) : e.InUtf8 := by
  induction lines generalizing number with
  | nil => cases h
  | cons line lines ih =>
    rw [List.forall_mem_cons] at hlines
    rw [assembleLines] at h
    cases hline : assembleLine r line with
    | error wrong =>
      rw [hline] at h
      obtain rfl := Except.error.inj h
      exact inUtf8_of_assembleLine hlines.1 hline number
    | ok i =>
      rw [hline] at h
      dsimp only at h
      cases hrest : assembleLines r (number + 1) lines with
      | ok rest =>
        rw [hrest] at h
        cases h
      | error e' =>
        rw [hrest] at h
        obtain rfl := Except.error.inj h
        exact ih hlines.2 hrest

/-- A program that does not assemble is refused in UTF-8. -/
theorem inUtf8_of_assemble {program : Bytes} (hprogram : isUtf8 program = true) {e : Failure}
    (h : assemble r program = .error e) : e.InUtf8 := by
  unfold assemble at h
  cases hlines : assembleLines r 1 (programLines program) with
  | ok code =>
    rw [hlines] at h
    cases h
  | error e' =>
    rw [hlines] at h
    obtain rfl := Except.error.inj h
    exact inUtf8_of_assembleLines (fun _ => isUtf8_of_mem_programLines hprogram) hlines

theorem inUtf8_of_mem_validateLines {number : Nat} {lines : List Bytes}
    (hlines : ∀ line ∈ lines, isUtf8 line = true) :
    ∀ e ∈ validateLines r number lines, e.InUtf8 := by
  induction lines generalizing number with
  | nil => exact List.forall_mem_nil _
  | cons line lines ih =>
    rw [List.forall_mem_cons] at hlines
    rw [validateLines]
    cases hline : assembleLine r line with
    | error wrong =>
      exact List.forall_mem_cons.mpr ⟨inUtf8_of_assembleLine hlines.1 hline number, ih hlines.2⟩
    | ok i => exact ih hlines.2

/-- All that is wrong with a program is reported in UTF-8. -/
theorem inUtf8_of_mem_validate {program : Bytes} (hprogram : isUtf8 program = true) :
    ∀ e ∈ validate r program, e.InUtf8 :=
  inUtf8_of_mem_validateLines fun _ => isUtf8_of_mem_programLines hprogram

end

/-! ## Running -/

theorem Transcript.isUtf8_append {a b : Transcript} (ha : isUtf8 a.toBytes = true)
    (hb : isUtf8 b.toBytes = true) :
    isUtf8 (a ++ b).toBytes = true := by
  rw [Transcript.toBytes_append]
  exact Text.isUtf8_append ha hb

/-- The names of the standard instructions are UTF-8, and so is what stands for the name
of another. -/
theorem Registry.isUtf8_standard_name? (id : Int64) :
    isUtf8 ((Registry.standard.name? id).getD []) = true := by
  cases haction : Registry.standard.action? id with
  | none =>
    rw [Tables.name?_of_action?_eq_none haction]
    rfl
  | some a =>
    rw [Registry.standard_name? haction]
    exact isUtf8_utf8 _

theorem Registry.isUtf8_listed (is : List Instruction) :
    isUtf8 (Registry.standard.listed is).toBytes = true := by
  induction is with
  | nil => rfl
  | cons i rest ih =>
    have hline : isUtf8 (Registry.standard.listedLine i) = true := by
      simp [listedLine, isUtf8_standard_name?]
    rw [listed]
    split
    · apply Transcript.isUtf8_append _ ih
      simp [Transcript.toBytes, hline]
    · simp [Transcript.toBytes]

theorem isUtf8_listing (code : Code) : isUtf8 (listing .standard code) = true := by
  apply isUtf8_flatMap
  rintro ⟨i, address⟩ -
  have hname : isUtf8 (Registry.standard.shownName i.op) = true := by
    unfold Registry.shownName
    cases haction : Registry.standard.name? i.op with
    | none => simp
    | some name =>
      have hstandard := Registry.isUtf8_standard_name? i.op
      rw [haction] at hstandard
      exact hstandard
  have hzeros := isUtf8_replicate (b := ascii '0') (by decide)
  have hblanks := isUtf8_replicate (b := 32) (by decide)
  simp [listingLine, padLeft, padRight, hname, hzeros, hblanks]

/-- What a standard instruction prints and writes is UTF-8. -/
theorem Standard.isUtf8_exec (a : Standard) (arg : Value) (s : State Standard) :
    isUtf8 (exec a arg s.bare).2.stdout.toBytes = true ∧
      isUtf8 (exec a arg s.bare).2.output.toBytes = true := by
  rw [exec_eq_effect]
  obtain ⟨pc, stack, debug, registry, stdout, maxSteps, steps, output, entered, interrupt⟩ := s
  rcases stack with _ | ⟨v, _ | ⟨w, rest⟩⟩ <;> cases a <;>
    simp [effect, short, State.bare, State.print, State.push, State.write, State.writeChar,
      Transcript.write, Transcript.toBytes]
  -- a division writes nothing, whatever its divisor
  split <;> simp

namespace State

/-- A state over the standard instructions that has printed and written nothing but UTF-8. -/
structure Spoken (s : State Standard) : Prop where
  registry : s.registry = .standard
  stdout : isUtf8 s.stdout.toBytes = true
  output : isUtf8 s.output.toBytes = true

namespace Spoken

variable {s t : State Standard}

theorem enter (h : s.Spoken) (code : Code) : (s.enter code).Spoken := by
  rw [enter_eq]
  refine ⟨h.registry, Transcript.isUtf8_append h.stdout ?_, h.output⟩
  unfold greeting
  split
  · rw [h.registry]
    refine Transcript.isUtf8_append (Transcript.isUtf8_append ?_ (Registry.isUtf8_listed _)) ?_ <;>
      simp [Transcript.toBytes]
  · rfl

theorem hear (h : s.Spoken) (r : Option Interrupt) : (s.hear r).Spoken :=
  ⟨h.registry, h.stdout, h.output⟩

theorem announced (h : s.Spoken) (i : Instruction) : isUtf8 (s.announced i).toBytes = true := by
  unfold State.announced
  split
  · simp [Transcript.toBytes, traceLine, h.registry, Registry.isUtf8_standard_name?]
  · rfl

theorem after (h : s.Spoken) (i : Instruction) : (s.after i).Spoken := by
  have hdeed : isUtf8 (s.deed i).2.stdout.toBytes = true ∧
      isUtf8 (s.deed i).2.output.toBytes = true := by
    unfold deed
    split
    · exact ⟨rfl, rfl⟩
    · exact Standard.isUtf8_exec _ i.arg s.advance
  exact ⟨h.registry,
    Transcript.isUtf8_append (Transcript.isUtf8_append h.stdout (h.announced i)) hdeed.1,
    Transcript.isUtf8_append h.output hdeed.2⟩

theorem turn (h : s.Spoken) {code : Code} {r : Option Interrupt} (ht : s.turn code r = .inl t) :
    t.Spoken := by
  obtain ⟨i, -, -, rfl⟩ := turn_eq_inl ht
  exact (h.hear r).after i

end Spoken

/-- A run over the standard instructions fails for a reason worded in UTF-8. -/
theorem Fails.inUtf8 {code : Code} {s : State Standard} {e : Failure} (h : s.Fails code e) :
    e.InUtf8 := by
  cases h with
  | stopped hready =>
    rcases ready_error_cases hready with ⟨-, rfl⟩ | ⟨-, -, rfl⟩ | ⟨-, -, r, -, rfl⟩
    · simp [outside, Failure.InUtf8]
    · simp [exhausted, Failure.InUtf8]
    · simp [aborted, Failure.InUtf8]
  | unregistered i => simp [State.unregistered, Failure.InUtf8]
  | short a => exact isUtf8_utf8 _
  | divisor => exact isUtf8_utf8 _

/-- A run over the standard instructions never breaks down, and all that it reports is UTF-8. -/
theorem Spoken.run {code : Code} {signals : Signals} {fuel : Nat} {s t : State Standard}
    {ending : Ending} (hs : s.Spoken) (h : s.run code signals fuel = some (ending, t)) :
    t.Spoken ∧ ((∃ v, ending = .value v) ∨ ∃ e, ending = .failure e ∧ e.InUtf8) := by
  obtain ⟨before, u, hu, hlast, -⟩ :=
    loop_last (P := fun _ s => s.Spoken) (fun _ _ _ hs ht => hs.turn ht) (hs.enter code) h
  have hheard := hu.hear (signals (0 + before.length))
  constructor
  · rcases u.turn_cases code (signals (0 + before.length)) with ⟨e, -, hturn⟩ | ⟨i, -, hturn⟩
    · rw [hturn] at hlast
      obtain ⟨-, rfl⟩ := Prod.mk.inj (Sum.inr.inj hlast)
      exact hheard
    · rw [hturn] at hlast
      obtain rfl := follow_eq_inr hlast
      exact hheard.after i
  · rcases ending_of_turn hlast with hvalue | ⟨e, hfailure, hfails⟩
    · exact .inl hvalue
    · exact .inr ⟨e, hfailure, hfails.inUtf8⟩

end State

end StackMachine
