import Mathlib.Data.List.Basic
import StackMachine.Proofs.Dispatch
import StackMachine.Proofs.Entry
import StackMachine.Proofs.Splitting

/-!
# Debug mode

Debug mode prints the code on entry and a line before each instruction, into the same text that
`PRINT` prints into. A run in debug mode and the same run without it go through states that are
alike but for that text and the mode (`State.Alike`), turn by turn, so nothing else can differ at
their ends.

The text itself is a sequence of lines, of which each dispatched instruction contributes its trace
line and then what it prints itself (`loop_stdout`). A printed line is a number and never looks like
a trace line, so the trace lines can be told apart and taken out again by their text alone
(`untraced`).
-/

namespace StackMachine

open Text

/-! ## What instructions print -/

/-- The lines that an instruction itself prints, by the stack it finds. -/
def Standard.printed : Standard → List Value → List Bytes
  | print, a :: _ => [word a]
  | _, _ => []

theorem Standard.exec_stdout {α : Type} (i : Standard) (arg : Value) (s : State α) :
    (exec i arg s).2.stdout.toBytes = s.stdout.toBytes ++ (i.printed s.stack).flatMap line := by
  rw [exec_eq_effect]
  obtain ⟨pc, stack, debug, registry, stdout, maxSteps, steps, output, entered, interrupt⟩ := s
  rcases stack with _ | ⟨a, _ | ⟨b, rest⟩⟩ <;> cases i <;>
    simp [effect, printed, short, State.print, State.push, State.write, State.writeChar]
  split <;> rfl

namespace State

/-- The lines that the instruction dispatched in a state prints itself. -/
def printed (i : Instruction) (s : State Standard) : List Bytes :=
  match s.registry.action? i.op with
  | none => []
  | some a => a.printed s.stack

theorem deed_stdout (i : Instruction) (s : State Standard) :
    (s.deed i).2.stdout.toBytes = (s.printed i).flatMap line := by
  rw [deed, printed]
  cases s.registry.action? i.op with
  | none => rfl
  | some a => exact a.exec_stdout i.arg s.advance.bare

/-- The lines that a dispatch adds to what was printed. -/
def shown (i : Instruction) (s : State Standard) : List Bytes :=
  if s.debug then s.traceLine i :: s.printed i else s.printed i

theorem after_stdout (i : Instruction) (s : State Standard) :
    (s.after i).stdout.toBytes = s.stdout.toBytes ++ (s.shown i).flatMap line := by
  rw [after, Transcript.toBytes_append, Transcript.toBytes_append, deed_stdout, announced, shown,
    List.append_assoc]
  cases s.debug <;> simp [Transcript.toBytes]

/-- The text printed by a run: what was printed before, and then what its dispatches show,
in order. -/
theorem loop_stdout {code : Code} {signals : Signals} {fuel n : Nat} {s t : State Standard}
    {ending : Ending} (h : loop code signals fuel n s = some (ending, t)) :
    t.stdout.toBytes = s.stdout.toBytes ++
      ((trail code signals fuel n s).flatMap fun x => x.1.shown x.2).flatMap line := by
  induction fuel generalizing n s with
  | zero => simp [loop] at h
  | succ fuel ih =>
    rw [loop_succ] at h
    rcases s.turn_cases code (signals n) with ⟨e, hready, hturn⟩ | ⟨i, hready, hturn⟩
    · rw [hturn] at h
      obtain ⟨-, rfl⟩ := Prod.mk.inj (Option.some.inj h)
      rw [trail, dispatched_of_error hready, hturn]
      exact (List.append_nil _).symm
    · have hafter := ((s.hear (signals n)).after_stdout i)
      rw [trail, dispatched_of_ok hready, hturn]
      rw [hturn] at h
      cases hfollow : follow (((s.hear (signals n)).deed i).1, (s.hear (signals n)).after i) with
      | inl u =>
        obtain ⟨-, rfl⟩ := follow_eq_inl_iff.mp hfollow
        rw [hfollow, Sum.elim_inl] at h
        rw [ih h, hafter, Sum.elim_inl]
        simp [hear]
      | inr x =>
        obtain ⟨ending', u⟩ := x
        rw [hfollow] at h
        obtain ⟨-, rfl⟩ := Prod.mk.inj (Option.some.inj h)
        rw [← follow_eq_inr hfollow, hafter]
        simp [hear]

/-! ## The same run in the two modes -/

/-- Two states that differ at most in the mode and in what was printed. -/
def Alike {α : Type} (s t : State α) : Prop := t = { s with debug := t.debug, stdout := t.stdout }

/-- What two states that are alike have in common at the end of a run. -/
def EndAlike {α : Type} (x y : Ending × State α) : Prop := x.1 = y.1 ∧ x.2.Alike y.2

theorem Alike.hear {α : Type} {s t : State α} (h : s.Alike t) (r : Option Interrupt) :
    (s.hear r).Alike (t.hear r) := by
  rw [Alike] at h
  rw [h]
  rfl

/-- What depends neither on the mode nor on what was printed is the same in states that
are alike. -/
theorem Alike.congr {α β : Type} (f : State α → β)
    (hf : ∀ s d o, f { s with debug := d, stdout := o } = f s) {s t : State α} (h : s.Alike t) :
    f s = f t :=
  calc f s = f { s with debug := t.debug, stdout := t.stdout } := (hf s t.debug t.stdout).symm
    _ = f t := congrArg f h.symm

theorem Alike.ready {α : Type} {s t : State α} (h : s.Alike t) (code : Code) :
    s.ready code = t.ready code :=
  h.congr (·.ready code) fun _ _ _ => rfl

theorem Alike.deed {s t : State Standard} (h : s.Alike t) (i : Instruction) : s.deed i = t.deed i :=
  h.congr (·.deed i) fun _ _ _ => rfl

theorem Alike.printed {s t : State Standard} (h : s.Alike t) (i : Instruction) :
    s.printed i = t.printed i :=
  h.congr (·.printed i) fun _ _ _ => rfl

theorem Alike.after {s t : State Standard} (h : s.Alike t) (i : Instruction) :
    (s.after i).Alike (t.after i) := by
  rw [Alike] at h
  rw [h]
  rfl

/-- The loop goes on alike from states that are alike. -/
theorem Alike.follow {α : Type} {s t : State α} (h : s.Alike t) (v : Verdict) :
    Sum.LiftRel Alike EndAlike (follow (v, s)) (follow (v, t)) := by
  cases v with
  | more => exact .inl h
  | halt => exact .inr ⟨h.congr State.haltEnding fun _ _ _ => rfl, h⟩
  | failed e => exact .inr ⟨rfl, h⟩
  | crashed m => exact .inr ⟨rfl, h⟩

theorem Alike.turn {s t : State Standard} (h : s.Alike t) (code : Code) (r : Option Interrupt) :
    Sum.LiftRel Alike EndAlike (s.turn code r) (t.turn code r) := by
  have hheard := h.hear r
  have hsame := hheard.ready code
  rcases s.turn_cases code r with ⟨e, hready, hturn⟩ | ⟨i, hready, hturn⟩
  · rw [hready] at hsame
    rw [hturn, turn_of_error hsame.symm]
    exact .inr ⟨rfl, hheard⟩
  · rw [hready] at hsame
    rw [hturn, turn_of_ok hsame.symm, dispatch_eq, hheard.deed]
    exact (hheard.after i).follow _

/-- States that are alike dispatch the same instruction, and it prints the same. -/
theorem Alike.dispatched {s t : State Standard} (h : s.Alike t) (code : Code)
    (r : Option Interrupt) :
    (s.dispatched code r).map (fun x => x.1.printed x.2) =
      (t.dispatched code r).map fun x => x.1.printed x.2 := by
  have hsame := (h.hear r).ready code
  cases hready : (s.hear r).ready code with
  | error e =>
    rw [hready] at hsame
    rw [dispatched_of_error hready, dispatched_of_error hsame.symm]
  | ok i =>
    rw [hready] at hsame
    rw [dispatched_of_ok hready, dispatched_of_ok hsame.symm]
    exact congrArg (fun p => [p]) ((h.hear r).printed i)

/-- Entering in the two modes gives states that are alike. -/
theorem alike_enter (code : Code) (s : State Standard) :
    ({ s with debug := true }.enter code).Alike ({ s with debug := false }.enter code) := by
  rw [enter_eq, enter_eq]
  rfl

/-! ## Telling the trace lines apart -/

end State

/-- Whether a line looks like one that announces an instruction. -/
def isTraceLine (l : Bytes) : Bool := (utf8 "-- exec ").isPrefixOf l

/-- The lines of a text that announce instructions. -/
def traceLines (text : Bytes) : List Bytes := (split text 10).filter isTraceLine

/-- A text without the lines that announce instructions. -/
def untraced (text : Bytes) : Bytes :=
  ((split text 10).filter fun l => !isTraceLine l).flatMap line

theorem isTraceLine_traceLine {α : Type} (i : Instruction) (s : State α) :
    isTraceLine (s.traceLine i) = true := by
  rw [isTraceLine, List.isPrefixOf_iff_prefix, State.traceLine]
  simp only [List.append_assoc]
  exact List.prefix_append _ _

/-- A number does not look like a trace line. -/
theorem isTraceLine_word (v : Value) : isTraceLine (word v) = false := by
  rw [Bool.eq_false_iff]
  intro h
  rw [isTraceLine, List.isPrefixOf_iff_prefix] at h
  have hblank : (32 : UInt8) ∈ utf8 "-- exec " := by decide
  exact not_mem_word (by decide) (by decide) v (h.subset hblank)

theorem mem_printed {i : Instruction} {s : State Standard} {l : Bytes} (h : l ∈ s.printed i) :
    ∃ v, l = word v := by
  rw [State.printed] at h
  cases hi : s.registry.action? i.op with
  | none => simp [hi] at h
  | some a =>
    rw [hi] at h
    rcases hstack : s.stack with _ | ⟨v, rest⟩ <;> cases a <;>
      simp only [hstack, Standard.printed, List.not_mem_nil] at h
    exact ⟨v, List.mem_singleton.mp h⟩

theorem newline_not_mem_name (a : Standard) : (10 : UInt8) ∉ utf8 a.name := by
  cases a <;> decide

/-- A trace line is one line. -/
theorem newline_not_mem_traceLine {s : State Standard} (hs : s.registry = .standard)
    (i : Instruction) : (10 : UInt8) ∉ s.traceLine i := by
  have hname : (10 : UInt8) ∉ (s.registry.name? i.op).getD [] := by
    rw [hs]
    cases haction : Registry.standard.action? i.op with
    | none =>
      rw [Tables.name?_of_action?_eq_none haction]
      simp
    | some a =>
      rw [Registry.standard_name? haction]
      exact newline_not_mem_name a
  have hword : ∀ v, (10 : UInt8) ∉ word v := fun v => not_mem_word (by decide) (by decide) v
  rw [State.traceLine]
  simp only [List.mem_append, not_or]
  exact ⟨⟨⟨⟨⟨by decide, hname⟩, by decide⟩, hword _⟩, by decide⟩, hword _⟩

/-- A dispatch in debug mode. -/
def Traced (x : State Standard × Instruction) : Prop := x.1.registry = .standard ∧ x.1.debug = true

theorem Traced.shown {x : State Standard × Instruction} (h : Traced x) :
    x.1.shown x.2 = x.1.traceLine x.2 :: x.1.printed x.2 := by
  rw [State.shown, if_pos h.2]

theorem Traced.filter_trace {x : State Standard × Instruction} (h : Traced x) :
    (x.1.shown x.2).filter isTraceLine = [x.1.traceLine x.2] := by
  rw [h.shown, List.filter_cons_of_pos (isTraceLine_traceLine _ _), List.filter_eq_nil_iff.mpr]
  intro l hl
  obtain ⟨v, rfl⟩ := mem_printed hl
  rw [isTraceLine_word]
  decide

theorem Traced.filter_not_trace {x : State Standard × Instruction} (h : Traced x) :
    ((x.1.shown x.2).filter fun l => !isTraceLine l) = x.1.printed x.2 := by
  rw [h.shown, List.filter_cons_of_neg, List.filter_eq_self.mpr]
  · intro l hl
    obtain ⟨v, rfl⟩ := mem_printed hl
    rw [isTraceLine_word]
    rfl
  · rw [isTraceLine_traceLine]
    decide

/-- What is shown of dispatches in debug mode splits into the lines that were shown. -/
theorem split_shown {trail : List (State Standard × Instruction)} (h : ∀ x ∈ trail, Traced x) :
    split ((trail.flatMap fun x => x.1.shown x.2).flatMap line) 10 =
      trail.flatMap fun x => x.1.shown x.2 := by
  refine split_flatMap (by decide) ?_
  intro l hl
  obtain ⟨x, hx, hl⟩ := List.mem_flatMap.mp hl
  rw [(h x hx).shown, List.mem_cons] at hl
  rcases hl with rfl | hl
  · exact newline_not_mem_traceLine (h x hx).1 x.2
  · obtain ⟨v, rfl⟩ := mem_printed hl
    exact not_mem_word (by decide) (by decide) v

theorem traceLines_shown {trail : List (State Standard × Instruction)} (h : ∀ x ∈ trail, Traced x) :
    traceLines ((trail.flatMap fun x => x.1.shown x.2).flatMap line) =
      trail.map fun x => x.1.traceLine x.2 := by
  rw [traceLines, split_shown h, List.filter_flatMap, List.map_eq_flatMap]
  exact List.flatMap_congr fun x hx => (h x hx).filter_trace

theorem untraced_shown {trail : List (State Standard × Instruction)} (h : ∀ x ∈ trail, Traced x) :
    untraced ((trail.flatMap fun x => x.1.shown x.2).flatMap line) =
      (trail.flatMap fun x => x.1.printed x.2).flatMap line := by
  rw [untraced, split_shown h, List.filter_flatMap]
  exact congrArg (List.flatMap line) (List.flatMap_congr fun x hx => (h x hx).filter_not_trace)

/-! ## The listing on entry -/

/-- The listing of code that is printed on entry: a banner, a line for each instruction, an end
marker and an empty line. -/
def listingBlock (r : Registry Standard) (code : Code) : Bytes :=
  ([utf8 "=== running vm ======================", utf8 "disassembly of run code:"]
    ++ code.toList.map r.listedLine ++ [utf8 "=== end of disassembly", []]).flatMap line

/-- The text printed on entry in debug mode, when the registry knows the code. -/
theorem greeting_toBytes {code : Code} {s : State Standard} (hdebug : s.debug = true)
    (hfresh : s.entered = false) (hknown : s.registry.knows code.toList = true) :
    (s.greeting code).toBytes = listingBlock s.registry code := by
  have hbanner : utf8 "=== running vm ======================\ndisassembly of run code:\n" =
      line (utf8 "=== running vm ======================") ++
        line (utf8 "disassembly of run code:") := by
    decide
  have hend : utf8 "=== end of disassembly\n\n" =
      line (utf8 "=== end of disassembly") ++ line [] := by
    decide
  rw [State.greeting, hdebug, hfresh, Bool.not_false, Bool.and_true, if_pos rfl,
    Transcript.toBytes_append, Transcript.toBytes_append, listed_of_knows hknown, listingBlock,
    hbanner, hend]
  simp [Transcript.toBytes]

/-! ## Debug mode only adds text -/

/-- What a run in debug mode over code that the registry knows prints. -/
theorem stdout_of_debug {code : Code} {signals : Signals} {fuel : Nat} {s t : State Standard}
    {ending : Ending} (hs : s.registry = .standard) (hdebug : s.debug = true)
    (hfresh : s.entered = false) (hknown : Registry.standard.knows code.toList = true)
    (h : s.run code signals fuel = some (ending, t)) :
    (∀ x ∈ State.trail code signals fuel 0 (s.enter code), Traced x) ∧
    t.stdout.toBytes = s.stdout.toBytes ++ listingBlock .standard code ++
      ((State.trail code signals fuel 0 (s.enter code)).flatMap fun x => x.1.shown x.2).flatMap
        line := by
  rw [← hs] at hknown
  have henter := State.enter_eq code s
  rw [hdebug, hfresh, hknown] at henter
  constructor
  · intro x hx
    have hkeeps :=
      State.trail_keeps (fun u => (u.registry, u.debug)) (fun _ _ => rfl) (fun _ _ => rfl)
      x hx
    rw [henter, Prod.mk.injEq] at hkeeps
    exact ⟨hkeeps.1.trans hs, hkeeps.2⟩
  · have hgreeting : (s.enter code).stdout.toBytes =
        s.stdout.toBytes ++ listingBlock .standard code := by
      rw [henter, Transcript.toBytes_append, greeting_toBytes hdebug hfresh hknown, hs]
    rw [State.loop_stdout h, hgreeting]

/-- What a run without debug mode prints: what its instructions print. -/
theorem stdout_of_plain {code : Code} {signals : Signals} {fuel : Nat} {s t : State Standard}
    {ending : Ending} (hdebug : s.debug = false) (h : s.run code signals fuel = some (ending, t)) :
    t.stdout.toBytes = s.stdout.toBytes ++
      ((State.trail code signals fuel 0 (s.enter code)).flatMap fun x => x.1.printed x.2).flatMap
        line := by
  have henter := State.enter_eq code s
  rw [State.greeting, hdebug, Bool.false_and, Bool.false_and, if_neg (by decide),
    Transcript.append_empty] at henter
  have hshown : ∀ x ∈ State.trail code signals fuel 0 (s.enter code),
      x.1.shown x.2 = x.1.printed x.2 := by
    intro x hx
    have hplain : x.1.debug = false := by
      rw [State.trail_keeps (·.debug) (fun _ _ => rfl) (fun _ _ => rfl) x hx, henter]
    rw [State.shown, hplain, if_neg (by decide)]
  rw [State.loop_stdout h, List.flatMap_congr hshown, henter]

/-- **Debug mode only adds text.** Two runs from states that differ in the mode only, reached by the
same requests to stop, last equally long and end with the same value or failure, output, stack,
program counter and step count. If the registry knows all of the code, then what the run in debug
mode prints is the listing and then, for each instruction it dispatches, the trace line and what the
instruction prints itself; its trace lines are those, in that order, and without them the text is
what the other run prints. -/
theorem run_debug_rel (code : Code) (signals : Signals) {s : State Standard}
    (hs : s.registry = .standard) (hfresh : s.entered = false) (fuel : Nat) :
    Option.Rel
      (fun x y => x.1 = y.1 ∧ x.2.output.toBytes = y.2.output.toBytes ∧ x.2.stack = y.2.stack ∧
        x.2.pc = y.2.pc ∧ x.2.steps = y.2.steps)
      ({ s with debug := true }.run code signals fuel)
      ({ s with debug := false }.run code signals fuel) ∧
    (Registry.standard.knows code.toList = true → ∀ ending ending' t t',
      { s with debug := true }.run code signals fuel = some (ending, t) →
      { s with debug := false }.run code signals fuel = some (ending', t') →
      let trail := State.trail code signals fuel 0 ({ s with debug := true }.enter code)
      ∃ body,
        t.stdout.toBytes = s.stdout.toBytes ++ listingBlock .standard code ++ body ∧
        body = trail.flatMap (fun x =>
          line (x.1.traceLine x.2) ++ (x.1.printed x.2).flatMap line) ∧
        traceLines body = trail.map (fun x => x.1.traceLine x.2) ∧
        t'.stdout.toBytes = s.stdout.toBytes ++ untraced body) := by
  have hturn : ∀ n (u v : State Standard), u.Alike v →
      Sum.LiftRel State.Alike State.EndAlike (u.turn code (signals n)) (v.turn code (signals n)) :=
    fun n u v huv => huv.turn code (signals n)
  constructor
  · have hrel := State.loop_rel hturn fuel 0 (State.alike_enter code s)
    rw [State.run, State.run]
    revert hrel
    cases State.loop code signals fuel 0 ({ s with debug := true }.enter code) <;>
      cases State.loop code signals fuel 0 ({ s with debug := false }.enter code) <;> rintro ⟨⟩
    · exact .none
    · next x y h =>
      obtain ⟨hending, halike⟩ := h
      rw [State.Alike] at halike
      refine .some ⟨hending, ?_⟩
      rw [halike]
      exact ⟨rfl, rfl, rfl, rfl⟩
  · intro hknown ending ending' t t' ht ht' trail
    obtain ⟨htraced, hstdout⟩ :=
      stdout_of_debug (s := { s with debug := true }) hs rfl hfresh hknown ht
    have hbody :
        trail.flatMap (fun x => line (x.1.traceLine x.2) ++ (x.1.printed x.2).flatMap line) =
        (trail.flatMap fun x => x.1.shown x.2).flatMap line := by
      rw [List.flatMap_assoc]
      refine List.flatMap_congr fun x hx => ?_
      rw [(htraced x hx).shown, List.flatMap_cons]
    -- the two runs dispatch the same instructions, which print the same
    have hprinted : trail.flatMap (fun x => x.1.printed x.2) =
        (State.trail code signals fuel 0 ({ s with debug := false }.enter code)).flatMap
          fun x => x.1.printed x.2 := by
      rw [List.flatMap_def, List.flatMap_def]
      exact congrArg List.flatten (State.trail_map_eq hturn
        (fun n u v huv => huv.dispatched code (signals n)) fuel 0 (State.alike_enter code s))
    refine ⟨_, hstdout, hbody.symm, traceLines_shown htraced, ?_⟩
    rw [stdout_of_plain rfl ht', untraced_shown htraced, ← hprinted]

/-- Two numbers printed between a loaded constant and a division by zero. -/
theorem run_debug_rel_printing :
    let code : Code := #[⟨1, -5⟩, ⟨0, 0⟩, ⟨1, 0⟩, ⟨0, 0⟩, ⟨5, 0⟩, ⟨2, 0⟩]
    let s : State Standard := { registry := .standard }
    let trail := State.trail code .none 9 0 ({ s with debug := true }.enter code)
    ∃ ending ending' t t',
      { s with debug := true }.run code .none 9 = some (ending, t) ∧
      { s with debug := false }.run code .none 9 = some (ending', t') ∧
      ∃ body,
        t.stdout.toBytes = s.stdout.toBytes ++ listingBlock .standard code ++ body ∧
        body = trail.flatMap (fun x =>
          line (x.1.traceLine x.2) ++ (x.1.printed x.2).flatMap line) ∧
        traceLines body = trail.map (fun x => x.1.traceLine x.2) ∧
        t'.stdout.toBytes = s.stdout.toBytes ++ untraced body :=
  ⟨_, _, _, _, rfl, rfl,
    (run_debug_rel _ .none rfl rfl 9).2 (by decide) _ _ _ _ rfl rfl⟩

end StackMachine
