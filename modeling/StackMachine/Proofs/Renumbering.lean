import Mathlib.Data.List.Forall2
import StackMachine.Assembly
import StackMachine.Listing
import StackMachine.Proofs.Assembling
import StackMachine.Proofs.Dispatch
import StackMachine.Proofs.Entry
import StackMachine.Proofs.Meanings

/-!
# Operation numbers do not matter

Which number an instruction gets depends on the order of registration and on what was registered
under its name before. Where two registries agree about names, a program assembles to code that may
differ in every number, and yet nothing that can be seen of it differs: not the fault of a program
that does not assemble, not the listing, and not a run (`run_assemble_of_agrees`).

Code and state of the two machines are related instruction by instruction and turn by turn.
`SameOperation` relates instructions whose numbers resolve to the same name and action, each in its
own registry; `State.Counterpart` relates states that differ in the registry only. One turn leads
from counterparts to counterparts (`Counterpart.turn`).
-/

namespace StackMachine

open Text

variable {α : Type} {r r' : Registry α}

/-! ## Assembling over two registries -/

/-- The instructions have the same argument, and their numbers resolve to the same name and action,
the first in `r` and the second in `r'`. -/
def SameOperation (r r' : Registry α) (i i' : Instruction) : Prop :=
  i.arg = i'.arg ∧ ∃ name a, r.Resolves i.op name a ∧ r'.Resolves i'.op name a

/-- A name is unknown in both registries, or stands for numbers that resolve to the same. -/
theorem lookup?_of_agrees (h : r.Agrees r') (hsize : r.size ≤ 2 ^ 63) (hsize' : r'.size ≤ 2 ^ 63)
    (name : Bytes) :
    (r.lookup? name = none ∧ r'.lookup? name = none) ∨
    ∃ id id' a, r.lookup? name = some id ∧ r'.lookup? name = some id' ∧
      r.Resolves (Int64.ofNat id) name a ∧ r'.Resolves (Int64.ofNat id') name a := by
  -- what is bound in one registry has a meaning, so it is bound in the other as well
  have hbound : ∀ {q q' : Registry α}, q.Agrees q' → ∀ {id}, q.Binds name id →
      ∃ id', q'.Binds name id' := by
    intro q q' hagrees id hbinds
    obtain ⟨a, ha⟩ := hbinds.entry
    obtain ⟨id', hbinds', -⟩ := (hagrees name a).mp ⟨id, hbinds, ha⟩
    exact ⟨id', hbinds'⟩
  cases hid : r.lookup? name with
  | none =>
    left
    refine ⟨rfl, Option.eq_none_iff_forall_not_mem.mpr ?_⟩
    intro id' hid'
    obtain ⟨id, hbinds⟩ :=
      hbound (fun name a => (h name a).symm) (Registry.lookup?_eq_some_iff.mp hid')
    rw [Registry.lookup?_eq_some_iff.mpr hbinds] at hid
    cases hid
  | some id =>
    right
    have hbinds := Registry.lookup?_eq_some_iff.mp hid
    obtain ⟨id', hbinds'⟩ := hbound h hbinds
    obtain ⟨a, hmeans, hresolves⟩ := Registry.resolves_of_binds hsize hbinds
    obtain ⟨a', hmeans', hresolves'⟩ := Registry.resolves_of_binds hsize' hbinds'
    have hsame : r.meaning? name = r'.meaning? name := h.meaning? name
    rw [Registry.meaning?_eq_some_iff.mpr hmeans,
      Registry.meaning?_eq_some_iff.mpr hmeans'] at hsame
    obtain rfl := Option.some.inj hsame
    exact ⟨id, id', a, rfl, Registry.lookup?_eq_some_iff.mpr hbinds', hresolves, hresolves'⟩

/-- A line has the same fault over both registries, or spells the same operation. -/
theorem assembleLine_of_agrees (h : r.Agrees r') (hsize : r.size ≤ 2 ^ 63)
    (hsize' : r'.size ≤ 2 ^ 63) (line : Bytes) :
    (∃ e, assembleLine r line = .error e ∧ assembleLine r' line = .error e) ∨
    ∃ i i', assembleLine r line = .ok i ∧ assembleLine r' line = .ok i' ∧
      SameOperation r r' i i' := by
  unfold assembleLine
  rcases split line (ascii ' ') with _ | ⟨name, _ | ⟨argument, _ | ⟨word, words⟩⟩⟩
  · exact .inl ⟨_, rfl, rfl⟩
  · rcases lookup?_of_agrees h hsize hsize' name with
      ⟨hnone, hnone'⟩ | ⟨id, id', a, hid, hid', ha, ha'⟩
    · left
      dsimp only
      rw [hnone, hnone']
      exact ⟨_, rfl, rfl⟩
    · right
      dsimp only
      rw [hid, hid']
      exact ⟨_, _, rfl, rfl, rfl, name, a, ha, ha'⟩
  · rcases lookup?_of_agrees h hsize hsize' name with
      ⟨hnone, hnone'⟩ | ⟨id, id', a, hid, hid', ha, ha'⟩
    · left
      dsimp only
      rw [hnone, hnone']
      exact ⟨_, rfl, rfl⟩
    · dsimp only
      rw [hid, hid']
      dsimp only
      cases Numeral.parse argument with
      | error cause => exact .inl ⟨_, rfl, rfl⟩
      | ok arg => exact .inr ⟨_, _, rfl, rfl, rfl, name, a, ha, ha'⟩
  · exact .inl ⟨_, rfl, rfl⟩

/-- Lines have the same first fault over both registries, or spell the same operations in the same
order. -/
theorem assembleLines_of_agrees (h : r.Agrees r') (hsize : r.size ≤ 2 ^ 63)
    (hsize' : r'.size ≤ 2 ^ 63) (number : Nat) (lines : List Bytes) :
    (∃ e, assembleLines r number lines = .error e ∧ assembleLines r' number lines = .error e) ∨
    ∃ is is', assembleLines r number lines = .ok is ∧ assembleLines r' number lines = .ok is' ∧
      List.Forall₂ (SameOperation r r') is is' := by
  induction lines generalizing number with
  | nil => exact .inr ⟨[], [], rfl, rfl, .nil⟩
  | cons line lines ih =>
    rw [assembleLines, assembleLines]
    rcases assembleLine_of_agrees h hsize hsize' line with ⟨e, he, he'⟩ | ⟨i, i', hi, hi', hsame⟩
    · rw [he, he']
      exact .inl ⟨_, rfl, rfl⟩
    · rw [hi, hi']
      rcases ih (number + 1) with ⟨e, he, he'⟩ | ⟨is, is', his, his', hall⟩
      · dsimp only
        rw [he, he']
        exact .inl ⟨e, rfl, rfl⟩
      · dsimp only
        rw [his, his']
        exact .inr ⟨i :: is, i' :: is', rfl, rfl, .cons hsame hall⟩

/-! ## The same code -/

/-- Two pieces of code that say the same, the first over `r` and the second over `r'`. -/
def Code.Same (r r' : Registry α) (code code' : Code) : Prop :=
  List.Forall₂ (SameOperation r r') code.toList code'.toList

theorem Code.Same.size_eq {code code' : Code} (h : Code.Same r r' code code') :
    code.size = code'.size := by
  rw [← Array.length_toList, ← Array.length_toList]
  exact h.length_eq

/-- At each address there are instructions that say the same, or none. -/
theorem Code.Same.fetch? {code code' : Code} (h : Code.Same r r' code code') (pc : Int64) :
    Option.Rel (SameOperation r r') (code.fetch? pc) (code'.fetch? pc) := by
  rw [Code.fetch?, Code.fetch?]
  by_cases hneg : pc < 0
  · rw [if_pos hneg, if_pos hneg]
    exact .none
  · rw [if_neg hneg, if_neg hneg, ← Array.getElem?_toList, ← Array.getElem?_toList]
    exact forall₂_getElem? h pc.toNatClampNeg

theorem SameOperation.listingLine {i i' : Instruction} (h : SameOperation r r' i i')
    (address : Nat) :
    listingLine r address i = listingLine r' address i' := by
  obtain ⟨harg, name, a, ha, ha'⟩ := h
  rw [StackMachine.listingLine, StackMachine.listingLine, Registry.shownName, Registry.shownName,
    ha.1, ha'.1, harg, Option.getD_some, Option.getD_some]

/-- Code that says the same has the same listing. -/
theorem Code.Same.listing {code code' : Code} (h : Code.Same r r' code code') :
    StackMachine.listing r code = StackMachine.listing r' code' := by
  have hfrom : ∀ {is is' : List Instruction}, List.Forall₂ (SameOperation r r') is is' → ∀ start,
      ((is.zipIdx start).flatMap fun x => listingLine r x.2 x.1) =
        (is'.zipIdx start).flatMap fun x => listingLine r' x.2 x.1 := by
    intro is is' hall
    induction hall with
    | nil => exact fun _ => rfl
    | cons hsame _ ih =>
      intro start
      rw [List.zipIdx_cons, List.zipIdx_cons, List.flatMap_cons, List.flatMap_cons, ih (start + 1),
        hsame.listingLine start]
  exact hfrom h 0

/-- Code that says the same is listed alike on entry, and all of it is known to the registries. -/
theorem Code.Same.listed {is is' : List Instruction}
    (h : List.Forall₂ (SameOperation r r') is is') :
    r.listed is = r'.listed is' ∧ r.knows is = true ∧ r'.knows is' = true := by
  induction h with
  | nil => exact ⟨rfl, rfl, rfl⟩
  | cons hsame _ ih =>
    obtain ⟨harg, name, a, ha, ha'⟩ := hsame
    obtain ⟨hlisted, hknows, hknows'⟩ := ih
    rw [Registry.knows] at hknows hknows' ⊢
    rw [Registry.knows, Registry.listed, Registry.listed, Registry.listedLine, Registry.listedLine,
      List.all_cons, List.all_cons, ha.1, ha'.1, harg, hlisted, hknows, hknows']
    exact ⟨rfl, rfl, rfl⟩

/-! ## Counterparts -/

namespace State

variable {r r' : Registry Standard} {s t : State Standard} {i i' : Instruction} {code code' : Code}

/-- `s` is a state over `r`, and `t` is the same over `r'`. -/
def Counterpart (r r' : Registry Standard) (s t : State Standard) : Prop :=
  s.registry = r ∧ t = { s with registry := r' }

/-- The same ending, and states that differ in the registry only. -/
def EndCounterpart (r r' : Registry Standard) (x y : Ending × State Standard) : Prop :=
  x.1 = y.1 ∧ Counterpart r r' x.2 y.2

theorem Counterpart.hear (h : Counterpart r r' s t) (q : Option Interrupt) :
    Counterpart r r' (s.hear q) (t.hear q) := by
  obtain ⟨hs, rfl⟩ := h
  exact ⟨hs, rfl⟩

/-- The head of the loop finds the same reason to stop, or instructions that say the same. -/
theorem Counterpart.ready (h : Counterpart r r' s t) (hcode : Code.Same r r' code code') :
    (∃ e, s.ready code = .error e ∧ t.ready code' = .error e) ∨
    ∃ i i', s.ready code = .ok i ∧ t.ready code' = .ok i' ∧ SameOperation r r' i i' := by
  obtain ⟨-, rfl⟩ := h
  -- the head of the loop does not look at the registry
  have hblind : State.ready code' { s with registry := r' } = s.ready code' := rfl
  rw [hblind, State.ready, State.ready]
  have hfetch := hcode.fetch? s.pc
  revert hfetch
  cases code.fetch? s.pc <;> cases code'.fetch? s.pc <;> rintro ⟨⟩
  · refine .inl ⟨_, rfl, ?_⟩
    rw [outside, outside, hcode.size_eq]
  · next i i' hsame =>
    dsimp only
    by_cases hlimit : s.atLimit = true
    · rw [if_pos hlimit, if_pos hlimit]
      exact .inl ⟨_, rfl, rfl⟩
    · rw [if_neg hlimit, if_neg hlimit]
      cases s.noticed with
      | some q => exact .inl ⟨_, rfl, rfl⟩
      | none => exact .inr ⟨i, i', rfl, rfl, hsame⟩

/-- Operations that are the same are the same deed. -/
theorem Counterpart.deed (h : Counterpart r r' s t) (hsame : SameOperation r r' i i') :
    s.deed i = t.deed i' := by
  obtain ⟨rfl, rfl⟩ := h
  obtain ⟨harg, name, a, ha, ha'⟩ := hsame
  rw [State.deed, State.deed, ha.2, ha'.2, harg]
  rfl

/-- Operations that are the same are announced alike. -/
theorem Counterpart.announced (h : Counterpart r r' s t) (hsame : SameOperation r r' i i') :
    s.announced i = t.announced i' := by
  obtain ⟨rfl, rfl⟩ := h
  obtain ⟨harg, name, a, ha, ha'⟩ := hsame
  rw [State.announced, State.announced, traceLine, traceLine, ha.1, ha'.1, harg]

theorem Counterpart.after (h : Counterpart r r' s t) (hsame : SameOperation r r' i i') :
    Counterpart r r' (s.after i) (t.after i') := by
  have hdeed := h.deed hsame
  have hannounced := h.announced hsame
  obtain ⟨hs, rfl⟩ := h
  refine ⟨hs, ?_⟩
  rw [State.after, State.after, ← hdeed, ← hannounced]

theorem Counterpart.follow (h : Counterpart r r' s t) (v : Verdict) :
    Sum.LiftRel (Counterpart r r') (EndCounterpart r r') (follow (v, s)) (follow (v, t)) := by
  cases v with
  | more => exact .inl h
  | halt =>
    refine .inr ⟨?_, h⟩
    obtain ⟨-, rfl⟩ := h
    rfl
  | failed e => exact .inr ⟨rfl, h⟩
  | crashed m => exact .inr ⟨rfl, h⟩

/-- One turn leads from counterparts to counterparts. -/
theorem Counterpart.turn (h : Counterpart r r' s t) (hcode : Code.Same r r' code code')
    (q : Option Interrupt) :
    Sum.LiftRel (Counterpart r r') (EndCounterpart r r') (s.turn code q) (t.turn code' q) := by
  have hheard := h.hear q
  rcases hheard.ready hcode with ⟨e, he, he'⟩ | ⟨i, i', hi, hi', hsame⟩
  · rw [turn_of_error he, turn_of_error he']
    exact .inr ⟨rfl, hheard⟩
  · rw [turn_of_ok hi, turn_of_ok hi', dispatch_eq, dispatch_eq, hheard.deed hsame]
    exact (hheard.after hsame).follow _

theorem Counterpart.enter (h : Counterpart r r' s t) (hcode : Code.Same r r' code code') :
    Counterpart r r' (s.enter code) (t.enter code') := by
  obtain ⟨rfl, rfl⟩ := h
  obtain ⟨hlisted, hknows, hknows'⟩ := Code.Same.listed hcode
  rw [enter_eq, enter_eq, greeting, greeting]
  refine ⟨rfl, ?_⟩
  dsimp only
  rw [hlisted, hknows, hknows']

/-- **Runs of the same code.** From counterparts, two runs of code that says the same last equally
long, end alike and leave counterparts. -/
theorem Counterpart.run (h : Counterpart r r' s t) (hcode : Code.Same r r' code code')
    (signals : Signals) (fuel : Nat) :
    Option.Rel (EndCounterpart r r') (s.run code signals fuel) (t.run code' signals fuel) :=
  loop_rel (fun n _ _ hst => hst.turn hcode (signals n)) fuel 0 (h.enter hcode)

end State

/-! ## Two registries that agree -/

/-- **Operation numbers do not matter.** Over two registries in which the same names mean the same
standard instructions, a program has the same fault or assembles on both sides. The two pieces of
code have the same listing, and their runs from states that differ in the registry only last equally
long, end with the same value or failure and leave states that again differ in the registry only. -/
theorem run_assemble_of_agrees {r r' : Registry Standard} (hagrees : r.Agrees r')
    (hsize : r.size ≤ 2 ^ 63) (hsize' : r'.size ≤ 2 ^ 63) (program : Bytes) :
    (∃ e, assemble r program = .error e ∧ assemble r' program = .error e) ∨
    ∃ code code', assemble r program = .ok code ∧ assemble r' program = .ok code' ∧
      listing r code = listing r' code' ∧
      ∀ (s : State Standard) (signals : Signals) (fuel : Nat),
        Option.Rel
          (fun x y => x.1 = y.1 ∧ x.2.registry = r ∧ y.2 = { x.2 with registry := r' })
          ({ s with registry := r }.run code signals fuel)
          ({ s with registry := r' }.run code' signals fuel) := by
  rw [assemble, assemble]
  rcases assembleLines_of_agrees hagrees hsize hsize' 1 (programLines program) with
    ⟨e, he, he'⟩ | ⟨is, is', his, his', hall⟩
  · left
    rw [he, he']
    exact ⟨e, rfl, rfl⟩
  · right
    have hsame : Code.Same r r' is.toArray is'.toArray := hall
    rw [his, his']
    refine ⟨is.toArray, is'.toArray, rfl, rfl, hsame.listing, ?_⟩
    intro s signals fuel
    have hstart :
        State.Counterpart r r' { s with registry := r } { s with registry := r' } := ⟨rfl, rfl⟩
    exact hstart.run hsame signals fuel

/-- The standard instructions registered backwards, after one of their names was given to
another. -/
def Registry.backwards : Registry Standard :=
  Registry.empty.after
    (.register (utf8 "ADD") (some .div) ::
      Standard.all.reverse.map fun i => .register (utf8 i.name) (some i))

/-- A sum is printed in debug mode, by code that has no number in common with that over the standard
registry. -/
theorem run_assemble_of_agrees_backwards :
    let program := utf8 "LOAD_CONST 6\nDUP\nADD\nPRINT\nEXIT"
    Registry.standard.Reachable ∧ Registry.backwards.Reachable ∧
    Registry.standard.Agrees .backwards ∧
      ∃ code code' t,
        assemble Registry.standard program = .ok code ∧ code.toList.map (·.op) = [1, 8, 4, 0, 2] ∧
        assemble Registry.backwards program = .ok code' ∧
        code'.toList.map (·.op) = [12, 5, 9, 13, 11] ∧
        listing .standard code = listing .backwards code' ∧
        (State.new Registry.standard true).run code .none 6 = some (.value 12, t) ∧
        (State.new Registry.backwards true).run code' .none 6 =
          some (.value 12, { t with registry := .backwards }) := by
  intro program
  have hlines : programLines program =
      [utf8 "LOAD_CONST 6", utf8 "DUP", utf8 "ADD", utf8 "PRINT", utf8 "EXIT"] := by
    rw [programLines_eq]
    decide
  have hcode : assemble Registry.standard program =
      .ok #[⟨1, 6⟩, ⟨8, 0⟩, ⟨4, 0⟩, ⟨0, 0⟩, ⟨2, 0⟩] := by
    rw [assemble, hlines]
    simp only [assembleLines, assembleLine, split_eq_splitOn (by decide : ascii ' ' < 128)]
    decide
  have hcode' : assemble Registry.backwards program =
      .ok #[⟨12, 6⟩, ⟨5, 0⟩, ⟨9, 0⟩, ⟨13, 0⟩, ⟨11, 0⟩] := by
    rw [assemble, hlines]
    simp only [assembleLines, assembleLine, split_eq_splitOn (by decide : ascii ' ' < 128)]
    decide
  obtain ⟨t, hrun⟩ : ∃ t, (State.new Registry.standard true).run
      #[⟨1, 6⟩, ⟨8, 0⟩, ⟨4, 0⟩, ⟨0, 0⟩, ⟨2, 0⟩] .none 6 = some (.value 12, t) := ⟨_, rfl⟩
  have hagrees : Registry.standard.Agrees .backwards := by decide
  refine ⟨Registry.standard_reachable, Registry.Reachable.empty.after _, hagrees, ?_⟩
  rcases run_assemble_of_agrees hagrees (by decide) (by decide) program with
    ⟨e, he, -⟩ | ⟨code, code', h, h', hlisting, hruns⟩
  · rw [hcode] at he
    cases he
  · obtain rfl := Except.ok.inj (hcode.symm.trans h)
    obtain rfl := Except.ok.inj (hcode'.symm.trans h')
    refine ⟨_, _, t, hcode, rfl, hcode', rfl, hlisting, hrun, ?_⟩
    have hsame := hruns (State.new Registry.standard true) .none 6
    change Option.Rel _ ((State.new Registry.standard true).run _ .none 6)
      ((State.new Registry.backwards true).run _ .none 6) at hsame
    rw [hrun] at hsame
    generalize (State.new Registry.backwards true).run _ .none 6 = run' at hsame ⊢
    obtain ⟨hending, -, hstate⟩ := hsame
    exact congrArg some (Prod.ext hending.symm hstate)

end StackMachine
