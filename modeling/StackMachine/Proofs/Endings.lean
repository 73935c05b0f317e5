import Mathlib.Logic.ExistsUnique
import StackMachine.Proofs.Dispatch
import StackMachine.Proofs.Entry

/-!
# The ways in which a run can end

A run over the standard instructions ends in one of six ways, and where its fault points differs
from way to way: a program counter outside the code is reported as it is, an unregistered operation
number by its own address, and an instruction that could not be carried out by the address behind
it. `Outcome.Fits` says for each way what its ending and the state it leaves look like;
`run_existsUnique_outcome` says that every run that ends does so in exactly one of them.

The proof looks at the last turn only. What it needs to know about the turns before is collected in
`Along`.
-/

namespace StackMachine

open Text

/-! ## Requests to stop -/

/-- The first request to stop that arrives in the first `n` turns. -/
def Signals.upTo (signals : Signals) (n : Nat) : Option Interrupt :=
  (List.range n).findSome? signals

theorem Signals.upTo_succ (signals : Signals) (n : Nat) :
    signals.upTo (n + 1) = (signals.upTo n <|> signals n) := by
  rw [upTo, List.range_succ, List.findSome?_append, upTo]
  simp

/-- The request to stop that a failure is or somewhere wraps. -/
def Failure.interrupt? : Failure → Option Interrupt
  | .interrupt i => some i
  | .faultBecause _ cause => cause.interrupt?
  | .wrap _ _ inner => inner.interrupt?
  | _ => none

/-- A failure that wraps the step limit wraps no request to stop. -/
theorem Failure.interrupt?_of_hasStepLimit {e : Failure} (h : e.hasStepLimit = true) :
    e.interrupt? = none := by
  induction e with
  | faultBecause f cause ih => exact ih h
  | wrap before after inner ih => exact ih h
  | stepLimit => rfl
  | _ => simp [hasStepLimit] at h

/-! ## Outcomes -/

/-- The ways in which a run over the standard instructions can end. -/
inductive Outcome where
  /-- `EXIT` was carried out. -/
  | halted
  /-- The program counter had left the code. -/
  | strayed
  /-- An operation number is not registered. -/
  | unregistered
  /-- An instruction could not be carried out. -/
  | refused
  /-- The step limit was reached. -/
  | exhausted
  /-- A request to stop was noticed. -/
  | interrupted
  deriving DecidableEq, Repr

namespace Outcome

/-- What a run that ended in this way looks like. `trail` are the instructions it dispatched,
`request` is the request to stop that has reached it, `t` is the state it leaves. -/
def Fits (code : Code) (request : Option Interrupt) (trail : List (State Standard × Instruction))
    (ending : Ending) (t : State Standard) : Outcome → Prop
  | halted => ∃ u i v,
      trail.getLast? = some (u, i) ∧ u.pc = t.pc - 1 ∧ code.fetch? u.pc = some i ∧
      Registry.standard.action? i.op = some .exit ∧
      t.stack.head? = some v ∧ ending = .value v
  | strayed => ∃ f,
      ending = .failure (.fault f) ∧ f.kind = .segfault ∧
      f.pc = t.pc ∧ ¬ (0 ≤ t.pc.toInt ∧ t.pc.toInt < code.size)
  | unregistered => ∃ f i,
      ending = .failure (.fault f) ∧ f.kind = .invalidInstruction ∧
      f.pc = t.pc - 1 ∧ code.fetch? f.pc = some i ∧
      ¬ (0 ≤ i.op.toInt ∧ i.op.toInt < Registry.standard.size)
  | refused => ∃ f i a,
      ending = .failure (.fault f) ∧
      f.pc = t.pc ∧ 1 ≤ f.pc.toInt ∧ f.pc.toInt ≤ code.size ∧ code.fetch? (f.pc - 1) = some i ∧
      Registry.standard.action? i.op = some a ∧ Registry.standard.name? i.op = some f.op ∧
      (f.kind = .stackFail ∧ t.stack.length < a.operands ∨
        f.kind = .divByZero ∧ a = .div ∧ 2 ≤ t.stack.length ∧ t.stack.head? = some 0)
  | exhausted => ∃ e,
      ending = .failure e ∧ e.hasStepLimit = true ∧
      0 ≤ t.pc.toInt ∧ t.pc.toInt < code.size ∧ 0 < t.maxSteps ∧ t.maxSteps ≤ t.steps
  | interrupted => ∃ e r,
      ending = .failure e ∧ e.interrupt? = some r ∧ request = some r ∧
      (1024 : Int) ∣ t.steps.toInt

/-- The way in which a run ended, by its ending alone. -/
def ofEnding? : Ending → Option Outcome
  | .value _ => some halted
  | .failure (.fault f) =>
    if f.kind = .segfault then some strayed
    else if f.kind = .invalidInstruction then some unregistered
    else some refused
  | .failure e => if e.hasStepLimit then some exhausted else some interrupted
  | .crash _ => none

/-- The ending of a run tells the way in which it ended. -/
theorem Fits.ofEnding? {code : Code} {request : Option Interrupt}
    {trail : List (State Standard × Instruction)} {ending : Ending} {t : State Standard}
    {o : Outcome} (h : o.Fits code request trail ending t) : ofEnding? ending = some o := by
  cases o with
  | halted =>
    obtain ⟨u, i, v, -, -, -, -, -, rfl⟩ := h
    rfl
  | strayed =>
    obtain ⟨f, rfl, hkind, -⟩ := h
    simp [Outcome.ofEnding?, hkind]
  | unregistered =>
    obtain ⟨f, i, rfl, hkind, -⟩ := h
    rw [Outcome.ofEnding?, hkind]
    decide
  | refused =>
    obtain ⟨f, i, a, rfl, -, -, -, -, -, -, hkind⟩ := h
    rw [Outcome.ofEnding?]
    rcases hkind with ⟨hkind, -⟩ | ⟨hkind, -⟩
    · rw [hkind]
      decide
    · rw [hkind]
      decide
  | exhausted =>
    obtain ⟨e, rfl, hlimit, -⟩ := h
    cases e <;> simp_all [Outcome.ofEnding?, Failure.hasStepLimit]
  | interrupted =>
    obtain ⟨e, r, rfl, hrequest, -⟩ := h
    have hlimit : e.hasStepLimit = false := by
      rw [Bool.eq_false_iff]
      intro hlimit
      rw [Failure.interrupt?_of_hasStepLimit hlimit] at hrequest
      cases hrequest
    cases e <;> simp_all [Outcome.ofEnding?, Failure.interrupt?]

end Outcome

/-! ## Up to the last turn -/

/-- What is known of a run from `s₀` before its `n`-th turn. -/
structure Along (signals : Signals) (s₀ : State Standard) (n : Nat) (s : State Standard) :
    Prop where
  registry : s.registry = .standard
  request : s.interrupt = (s₀.interrupt <|> signals.upTo n)
  output : s₀.output.toBytes <+: s.output.toBytes

namespace Along

variable {signals : Signals} {s₀ s t : State Standard} {code : Code} {n : Nat}

theorem enter (code : Code) (h : s.registry = .standard) : Along signals s 0 (s.enter code) := by
  rw [State.enter_eq]
  refine ⟨h, ?_, List.prefix_rfl⟩
  simp [Signals.upTo]

/-- Hearing of a request is part of the turn it arrives in. -/
theorem hear (h : Along signals s₀ n s) :
    Along signals s₀ (n + 1) (s.hear (signals n)) := by
  refine ⟨h.registry, ?_, h.output⟩
  rw [State.hear, h.request, Signals.upTo_succ]
  simp [Option.or_assoc]

theorem after (h : Along signals s₀ n s) (i : Instruction) : Along signals s₀ n (s.after i) := by
  refine ⟨h.registry, h.request, h.output.trans ?_⟩
  rw [State.after, Transcript.toBytes_append]
  exact List.prefix_append _ _

theorem turn (h : Along signals s₀ n s) (ht : s.turn code (signals n) = .inl t) :
    Along signals s₀ (n + 1) t := by
  obtain ⟨i, -, -, rfl⟩ := State.turn_eq_inl ht
  exact h.hear.after i

end Along

/-! ## The last turn -/

namespace Outcome

/-- A run that stops at the head of the loop strayed, is exhausted or was interrupted. -/
theorem exists_fits_of_error {code : Code} {s : State Standard} {e : Failure}
    (trail : List (State Standard × Instruction)) (h : s.ready code = .error e) :
    ∃ o : Outcome, o.Fits code s.interrupt trail (.failure e) s := by
  rcases State.ready_error_cases h with ⟨hfetch, rfl⟩ | ⟨hfetch, hlimit, rfl⟩ |
    ⟨hfetch, -, r, hnoticed, rfl⟩
  · refine ⟨strayed, _, rfl, rfl, rfl, ?_⟩
    rw [← Code.fetch?_isSome_iff, hfetch]
    decide
  · rw [Ne, ← Option.not_isSome_iff_eq_none, Decidable.not_not, Code.fetch?_isSome_iff] at hfetch
    rw [State.atLimit, Bool.and_eq_true, decide_eq_true_eq, decide_eq_true_eq] at hlimit
    exact ⟨exhausted, _, rfl, rfl, hfetch.1, hfetch.2, hlimit.1, hlimit.2⟩
  · rw [State.noticed] at hnoticed
    split at hnoticed
    · next hsteps => exact ⟨interrupted, _, r, rfl, rfl, hnoticed, dvd_of_mod_pollInterval hsteps⟩
    · cases hnoticed

/-- A fault that names the instruction just behind which the program counter stands, and that the
stack accounts for, is a refusal. -/
theorem fits_refused {code : Code} (hcode : code.size < 2 ^ 63) {s t : State Standard}
    {i : Instruction} {a : Standard} {f : Fault} (request : Option Interrupt)
    (trail : List (State Standard × Instruction)) (hfetch : code.fetch? s.pc = some i)
    (ht : t.pc = s.pc + 1 ∧ t.stack = s.stack) (ha : Registry.standard.action? i.op = some a)
    (hpc : f.pc = s.pc + 1) (hop : f.op = utf8 a.name)
    (hkind : f.kind = .stackFail ∧ s.stack.length < a.operands ∨
      f.kind = .divByZero ∧ a = .div ∧ 2 ≤ s.stack.length ∧ s.stack.head? = some 0) :
    refused.Fits code request trail (.failure (.fault f)) t := by
  have hrange : 0 ≤ s.pc.toInt ∧ s.pc.toInt < code.size := by
    rw [← Code.fetch?_isSome_iff, hfetch]
    rfl
  have hnext : f.pc.toInt = s.pc.toInt + 1 := by
    rw [hpc]
    exact toInt_add_one (by omega)
  refine ⟨f, i, a, rfl, hpc.trans ht.1.symm, by omega, by omega, ?_, ha, ?_, ?_⟩
  · rw [hpc, add_one_sub_one, hfetch]
  · rw [hop, Registry.standard_name? ha]
  · rw [ht.2]
    exact hkind

/-- A run that ends with a dispatch was halted by `EXIT`, or the instruction is not registered or
could not be carried out. -/
theorem exists_fits_of_deed {code : Code} (hcode : code.size < 2 ^ 63) {s t : State Standard}
    {i : Instruction} {ending : Ending} {request : Option Interrupt}
    {trail : List (State Standard × Instruction)}
    (hregistry : s.registry = .standard) (htrail : trail.getLast? = some (s, i))
    (hfetch : code.fetch? s.pc = some i)
    (h : State.follow ((s.deed i).1, s.after i) = .inr (ending, t)) :
    ∃ o : Outcome, o.Fits code request trail ending t := by
  obtain rfl := State.follow_eq_inr h
  rcases s.deed_cases i with hmore | ⟨hdeed, hcases⟩
  · rw [hmore] at h
    cases h
  · have hafter := State.after_of_deed hdeed
    rw [hregistry] at hcases
    rcases hcases with
      ⟨hv, hexit, hne⟩ | ⟨hv, hnone⟩ | ⟨a, hv, ha, hshort⟩ | ⟨hv, hdiv, htwo, hzero⟩
    · obtain ⟨v, rest, hcons⟩ := List.exists_cons_of_ne_nil hne
      rw [hv] at h
      obtain ⟨rfl, -⟩ := Prod.mk.inj (Sum.inr.inj h)
      have hstack : (s.after i).stack = v :: rest := hafter.2.trans hcons
      refine ⟨halted, s, i, v, htrail, ?_, hfetch, hexit, ?_, ?_⟩
      · rw [hafter.1, add_one_sub_one]
      · rw [hstack]
        rfl
      · rw [State.haltEnding, State.peek?, hstack]
        rfl
    · rw [hv] at h
      obtain ⟨rfl, -⟩ := Prod.mk.inj (Sum.inr.inj h)
      have hback : (s.after i).pc - 1 = s.pc := by rw [hafter.1, add_one_sub_one]
      refine ⟨unregistered, _, i, rfl, rfl, ?_, ?_, Tables.action?_eq_none_iff.mp hnone⟩
      · rw [hafter.1]
        rfl
      · rw [← hfetch, ← hback, hafter.1]
        rfl
    · rw [hv] at h
      obtain ⟨rfl, -⟩ := Prod.mk.inj (Sum.inr.inj h)
      exact ⟨refused,
        fits_refused hcode request trail hfetch hafter ha rfl rfl (.inl ⟨rfl, hshort⟩)⟩
    · rw [hv] at h
      obtain ⟨rfl, -⟩ := Prod.mk.inj (Sum.inr.inj h)
      exact ⟨refused, fits_refused hcode request trail hfetch hafter hdiv rfl rfl
        (.inr ⟨rfl, rfl, htwo, hzero⟩)⟩

end Outcome

/-- **Every run that ends does so in exactly one of six ways.** The value it returns is zero unless
it was halted, and what it returns as output is what had been written before the run and then during
it.

An address is a word, so code holds fewer than `2 ^ 63` instructions. -/
theorem run_existsUnique_outcome {code : Code} (hcode : code.size < 2 ^ 63) {signals : Signals}
    {s t : State Standard} (hs : s.registry = .standard) {fuel : Nat} {ending : Ending}
    (h : s.run code signals fuel = some (ending, t)) :
    (∃! o : Outcome,
      o.Fits code
        (s.interrupt <|> signals.upTo ((State.trail code signals fuel 0 (s.enter code)).length + 1))
        (State.trail code signals fuel 0 (s.enter code)) ending t) ∧
    (∀ e, ending = .failure e → ending.result = 0) ∧
    s.output.toBytes <+: t.output.toBytes := by
  obtain ⟨before, u, hu, hlast, htrail⟩ :=
    State.loop_last (P := Along signals s) (fun _ _ _ => Along.turn) (Along.enter code hs) h
  rw [Nat.zero_add] at hu hlast htrail
  have hheard := hu.hear
  have hexists : (∃ o : Outcome, o.Fits code
      (s.interrupt <|> signals.upTo ((State.trail code signals fuel 0 (s.enter code)).length + 1))
      (State.trail code signals fuel 0 (s.enter code)) ending t) ∧
      s.output.toBytes <+: t.output.toBytes := by
    rcases u.turn_cases code (signals before.length) with ⟨e, hready, hturn⟩ | ⟨i, hready, hturn⟩
    · rw [hturn] at hlast
      obtain ⟨rfl, rfl⟩ := Prod.mk.inj (Sum.inr.inj hlast)
      rw [State.dispatched_of_error hready, List.append_nil] at htrail
      rw [htrail, ← hheard.request]
      exact ⟨Outcome.exists_fits_of_error before hready, hheard.output⟩
    · rw [hturn] at hlast
      rw [State.dispatched_of_ok hready] at htrail
      have hgetLast : (State.trail code signals fuel 0 (s.enter code)).getLast? =
          some (u.hear (signals before.length), i) := by
        rw [htrail, List.getLast?_concat]
      obtain ⟨hfetch, -, -⟩ := State.ready_eq_ok_iff.mp hready
      refine ⟨Outcome.exists_fits_of_deed hcode hheard.registry hgetLast hfetch hlast, ?_⟩
      rw [← State.follow_eq_inr hlast]
      exact (hheard.after i).output
  obtain ⟨⟨o, ho⟩, houtput⟩ := hexists
  refine ⟨⟨o, ho, ?_⟩, ?_, houtput⟩
  · intro o' ho'
    exact Option.some.inj (ho'.ofEnding?.symm.trans ho.ofEnding?)
  · rintro e rfl
    rfl

/-- A division by zero, with a request to stop that arrives too late to be noticed. -/
theorem run_existsUnique_outcome_divByZero :
    let code : Code := #[⟨1, 6⟩, ⟨1, 0⟩, ⟨5, 0⟩, ⟨2, 0⟩]
    let signals : Signals := fun turn => if turn = 1 then some .canceled else none
    let s : State Standard := { registry := .standard, maxSteps := 3, debug := true }
    let trail := State.trail code signals 9 0 (s.enter code)
    ∃ ending t, s.run code signals 9 = some (ending, t) ∧ Outcome.ofEnding? ending = some .refused ∧
      (∃! o : Outcome,
        o.Fits code (s.interrupt <|> signals.upTo (trail.length + 1)) trail ending t) ∧
      (∀ e, ending = .failure e → ending.result = 0) ∧
      s.output.toBytes <+: t.output.toBytes :=
  ⟨_, _, rfl, rfl, run_existsUnique_outcome (by decide) rfl rfl⟩

end StackMachine
