import StackMachine.Proofs.Verdicts

/-!
# How failures are reported

A failure may wrap another one, or be a fault with a cause. `Failure.chain` lists all that is met on
the way inwards, the failure itself first. What is reported of a failure is decided by its chain
alone: by the first link that is a fault, and where there is none, by whether the step limit or a
request to stop is among the links (`fault?_eq_some_iff`, `hasStepLimit_iff`, `hasInterrupt_iff`).

The text for the kind of a failure then tells faults from the other failures: it is the name of a
named kind only if that is the kind of the outermost fault.
-/

namespace StackMachine

open Text

namespace Failure

/-! ## Chains -/

/-- A failure and all that it wraps or that caused it, from the outside in. -/
def chain : Failure → List Failure
  | faultBecause f cause => faultBecause f cause :: cause.chain
  | wrap before after inner => wrap before after inner :: inner.chain
  | e => [e]

/-- The fault that a link of a chain is itself, with its cause. -/
def own? : Failure → Option (Fault × Option Failure)
  | fault f => some (f, none)
  | faultBecause f cause => some (f, some cause)
  | _ => none

/-- The first link of the chain that is a fault is `f`, with this cause. -/
def Outermost (e : Failure) (f : Fault) (cause : Option Failure) : Prop :=
  ∃ before link after, e.chain = before ++ link :: after ∧ link.own? = some (f, cause) ∧
    ∀ x ∈ before, x.own? = none

variable {e : Failure}

theorem fault?_eq_findSome? (e : Failure) : e.fault? = e.chain.findSome? own? := by
  induction e with
  | wrap before after inner ih => exact ih
  | _ => rfl

theorem fault?_eq_some_iff {f : Fault} {cause : Option Failure} :
    e.fault? = some (f, cause) ↔ e.Outermost f cause := by
  rw [fault?_eq_findSome?]
  exact List.findSome?_eq_some_iff

theorem fault?_eq_none_iff : e.fault? = none ↔ ∀ x ∈ e.chain, x.own? = none := by
  rw [fault?_eq_findSome?]
  exact List.findSome?_eq_none_iff

theorem hasStepLimit_iff : e.hasStepLimit = true ↔ stepLimit ∈ e.chain := by
  induction e with
  | faultBecause f cause ih => simpa [hasStepLimit, chain] using ih
  | wrap before after inner ih => simpa [hasStepLimit, chain] using ih
  | _ => simp [hasStepLimit, chain]

theorem hasInterrupt_iff :
    e.hasInterrupt = true ↔ interrupt .canceled ∈ e.chain ∨ interrupt .deadline ∈ e.chain := by
  induction e with
  | faultBecause f cause ih => simpa [hasInterrupt, chain] using ih
  | wrap before after inner ih => simpa [hasInterrupt, chain] using ih
  | interrupt i => cases i <;> simp [hasInterrupt, chain]
  | _ => simp [hasInterrupt, chain]

end Failure

/-! ## Kinds and their names -/

/-- The name of a named kind belongs to no other. -/
theorem FaultKind.ofName?_name {k : FaultKind} (h : k ∈ named.map (·.1)) :
    ofName? k.name = some k := by
  revert k
  decide

namespace Wire

variable {e : Failure}

/-- The kind of a failure without a fault is the name of no kind of fault. -/
theorem ofName?_abortKind (e : Failure) : FaultKind.ofName? (abortKind e) = none := by
  unfold abortKind
  split
  · decide
  · split <;> decide

theorem abortKind_eq (e : Failure) :
    abortKind e =
      if .stepLimit ∈ e.chain then utf8 "step_limit"
      else if .interrupt .canceled ∈ e.chain ∨ .interrupt .deadline ∈ e.chain then utf8 "canceled"
      else utf8 "internal" := by
  simp only [abortKind, Failure.hasStepLimit_iff, Failure.hasInterrupt_iff]

/-- A fault is reported with its own wording and that of its cause. -/
theorem ofFailure_of_outermost {f : Fault} {cause : Option Failure} (h : e.Outermost f cause) :
    FaultInfo.ofFailure e =
      { kind := f.kind.name
        message := f.msg ++ cause.elim [] fun c => utf8 ": " ++ c.message
        pc := f.pc
        line := f.line } := by
  rw [FaultInfo.ofFailure, Failure.fault?_eq_some_iff.mpr h]
  cases cause with
  | none => simp [faultMessage]
  | some c => simp [faultMessage]

theorem ofFailure_of_fault?_eq_none (h : e.fault? = none) :
    FaultInfo.ofFailure e = { kind := abortKind e, message := e.message, pc := -1, line := 0 } := by
  rw [FaultInfo.ofFailure, h]

/-- The kind of a failure, if it has a name, can be read off its report. -/
theorem ofName?_kind_ofFailure
    (h : e.kind? = none ∨ ∃ k ∈ FaultKind.named.map (·.1), e.kind? = some k) :
    FaultKind.ofName? (FaultInfo.ofFailure e).kind = e.kind? := by
  rw [Failure.kind?] at h ⊢
  cases hfault : e.fault? with
  | none =>
    rw [ofFailure_of_fault?_eq_none hfault]
    exact ofName?_abortKind e
  | some x =>
    rw [hfault] at h
    rw [ofFailure_of_outermost (Failure.fault?_eq_some_iff.mp hfault)]
    rcases h with hkind | ⟨k, hnamed, hkind⟩
    · cases hkind
    · obtain rfl := Option.some.inj hkind
      exact FaultKind.ofName?_name hnamed

/-- **Reports of failures.** If a fault is among the links of a failure, the outermost one is
reported with the name of its kind, its place and its wording, followed by that of its cause;
whatever else the chain holds, before or after it, makes no difference. If none is, the failure is
reported with its own wording, as the step limit if that is a link, else as canceled if a request to
stop is, and else as internal. Where the kind is a named one or there is none, it can be read off
the report. Diagnostics have the wording of the report. -/
theorem ofFailure_outermost (e : Failure) :
    ((∃ link ∈ e.chain, link.own? ≠ none) →
      ∃ f cause, e.Outermost f cause ∧ e.kind? = some f.kind ∧
        FaultInfo.ofFailure e =
          { kind := f.kind.name
            message := f.msg ++ cause.elim [] fun c => utf8 ": " ++ c.message
            pc := f.pc
            line := f.line }) ∧
    ((∀ link ∈ e.chain, link.own? = none) →
      e.kind? = none ∧
        FaultInfo.ofFailure e =
          { kind :=
              if .stepLimit ∈ e.chain then utf8 "step_limit"
              else if .interrupt .canceled ∈ e.chain ∨
                .interrupt .deadline ∈ e.chain then utf8 "canceled"
              else utf8 "internal"
            message := e.message
            pc := -1
            line := 0 }) ∧
    ((e.kind? = none ∨ ∃ k ∈ FaultKind.named.map (·.1), e.kind? = some k) →
      FaultKind.ofName? (FaultInfo.ofFailure e).kind = e.kind?) ∧
    (Diagnostic.ofFailure e).message = (FaultInfo.ofFailure e).message := by
  refine ⟨?_, ?_, ofName?_kind_ofFailure, (ofFailure_alike e).2.symm⟩
  · rintro ⟨link, hlink, hown⟩
    cases hfault : e.fault? with
    | none => exact absurd (Failure.fault?_eq_none_iff.mp hfault link hlink) hown
    | some x =>
      have houtermost := Failure.fault?_eq_some_iff.mp hfault
      refine ⟨x.1, x.2, houtermost, ?_, ofFailure_of_outermost houtermost⟩
      rw [Failure.kind?, hfault]
      rfl
  · intro hnone
    have hfault := Failure.fault?_eq_none_iff.mpr hnone
    rw [Failure.kind?, ofFailure_of_fault?_eq_none hfault, hfault, ← abortKind_eq]
    exact ⟨rfl, rfl⟩

/-- A short stack, blamed on a division by zero that is itself blamed on the step limit, between two
wrappings. -/
def entangled : Failure :=
  .wrap (utf8 "run: ") []
    (.faultBecause { kind := .stackFail, msg := utf8 "short", pc := 5, line := 3 }
      (.wrap (utf8 "in: ") []
        (.faultBecause { kind := .divByZero, msg := utf8 "zero", pc := -1 } .stepLimit)))

/-- Only the outer fault is reported, though the chain holds another one and the step limit. -/
theorem ofFailure_outermost_entangled :
    .stepLimit ∈ entangled.chain ∧ entangled.kind? = some .stackFail ∧
      FaultInfo.ofFailure entangled =
        { kind := utf8 "vm_stackfail"
          message := utf8 "short: in: div_by_zero: zero: step limit exceeded"
          pc := 5
          line := 3 } ∧
      FaultKind.ofName? (FaultInfo.ofFailure entangled).kind = some .stackFail := by
  obtain ⟨hfault, -, hparsed, -⟩ := ofFailure_outermost entangled
  obtain ⟨f, cause, houtermost, hkind, hinfo⟩ :=
    hfault ⟨_, List.mem_cons_of_mem _ List.mem_cons_self, by decide⟩
  obtain ⟨rfl, rfl⟩ : f = _ ∧ cause = _ :=
    Prod.mk.inj (Option.some.inj ((Failure.fault?_eq_some_iff.mpr houtermost).symm.trans rfl))
  refine ⟨by decide, hkind, hinfo.trans (by decide), ?_⟩
  rw [hparsed (.inr ⟨.stackFail, by decide, hkind⟩)]
  exact hkind

end Wire

end StackMachine
