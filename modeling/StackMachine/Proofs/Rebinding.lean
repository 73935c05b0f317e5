import StackMachine.Proofs.Assembling
import StackMachine.Proofs.Dispatch
import StackMachine.Proofs.Entry
import StackMachine.Proofs.Meanings

/-!
# Assembled code keeps its meaning

Assembling puts a number in the place of each name. From then on names may be given new meanings as
often as one likes, before a run and during it, by the very instructions of the program: the numbers
stay what they were. `KeepsMeaning` says this of a registry that came later, for every line of the
program, and `run_keepsMeaning_after` says it of every registry that calls lead to and of every
state that a run passes through. In particular a run never comes upon a number that is not
registered.

Instructions are arbitrary here, except that they change the registry by calls and in no other way
(`Action.ByCalls`).
-/

namespace StackMachine

open Text

variable {α : Type}

/-! ## Lines and what they resolve to -/

/-- The name written on a line: what stands before its first blank. -/
def nameOn (line : Bytes) : Bytes := line.takeWhile (· ≠ 32)

theorem nameOn_append {name : Bytes} (h : 32 ∉ name) (rest : Bytes) :
    nameOn (name ++ rest) = name ++ nameOn rest := by
  apply List.takeWhile_append_of_pos
  intro b hb
  rw [decide_eq_true_eq]
  rintro rfl
  exact h hb

/-- A line spells the operation that the name written on it stands for. -/
theorem Registry.Spells.binds {r : Registry α} {line : Bytes} {i : Instruction}
    (h : r.Spells line i) :
    ∃ id, r.Binds (nameOn line) id ∧ i.op = Int64.ofNat id := by
  obtain ⟨name, id, -, hblank, hbinds, hop, hline⟩ := h
  have hname : nameOn line = name := by
    -- behind the name the line ends or goes on with a blank
    have hcut : ∀ rest, nameOn rest = [] → nameOn (name ++ rest) = name := by
      intro rest hrest
      rw [nameOn_append hblank, hrest, List.append_nil]
    rcases hline with ⟨rfl | rfl, -⟩ | ⟨lit, -, rfl | rfl⟩
    · simpa using hcut [] rfl
    · exact hcut [32] rfl
    · rw [List.append_assoc]
      exact hcut (32 :: lit) rfl
    · rw [List.append_assoc, List.append_assoc]
      exact hcut (32 :: (lit ++ [32])) rfl
  exact ⟨id, hname.symm ▸ hbinds, hop⟩

/-- Each instruction of the code resolves, in a registry that came later, to the name written on its
line and to what that name meant when the program was assembled. -/
def KeepsMeaning (r : Registry α) (program : Bytes) (code : Code) (later : Registry α) : Prop :=
  ∀ (k : Nat) (i : Instruction), code[k]? = some i →
    ∃ line a, (textLines program)[k]? = some line ∧ r.Means (nameOn line) a ∧
      later.Resolves i.op (nameOn line) a

/-- Calls do not change what assembled code means. -/
theorem keepsMeaning_after {r : Registry α} (hr : r.Reachable) (hsize : r.size ≤ 2 ^ 63)
    {program : Bytes} {code : Code} (h : assemble r program = .ok code)
    (calls : List (Registry.Call α)) :
    KeepsMeaning r program code (r.after calls) := by
  intro k i hi
  have hspells := forall₂_getElem? (forall₂_spells_of_assemble hr h) k
  rw [show code.toList[k]? = some i from Array.getElem?_toList.trans hi] at hspells
  cases hline : (textLines program)[k]? with
  | none =>
    rw [hline] at hspells
    cases hspells
  | some line =>
    rw [hline] at hspells
    obtain ⟨hspells⟩ := hspells
    obtain ⟨id, hbinds, hop⟩ := Registry.Spells.binds hspells
    obtain ⟨a, hmeans, hresolves⟩ := Registry.resolves_of_binds hsize hbinds
    refine ⟨line, a, rfl, hmeans, ?_⟩
    rw [hop]
    exact Registry.resolves_after hresolves calls

/-- An instruction of assembled code is registered wherever the code keeps its meaning. -/
theorem KeepsMeaning.exists_action {r later : Registry α} {program : Bytes} {code : Code}
    (h : KeepsMeaning r program code later) {pc : Int64} {i : Instruction}
    (hi : code.fetch? pc = some i) :
    ∃ a, later.action? i.op = some a := by
  rw [Code.fetch?] at hi
  split at hi
  · cases hi
  · obtain ⟨line, a, -, -, hresolves⟩ := h _ i hi
    exact ⟨a, hresolves.2⟩

/-! ## Instructions that make calls -/

/-- Instructions change the registry by calls only. -/
def Action.ByCalls (α : Type) [Action α] : Prop :=
  ∀ (a : α) (arg : Value) (s : State α),
    ∃ calls, (Action.exec a arg s).2.registry = s.registry.after calls

namespace State

/-- A dispatch changes the registry by calls. -/
theorem registry_dispatch [Action α] (h : Action.ByCalls α) (i : Instruction) (s : State α) :
    ∃ calls, (s.dispatch i).2.registry = s.registry.after calls := by
  rcases s.dispatch_cases i with ⟨a, -, hdispatch⟩ | ⟨-, hdispatch⟩
  · obtain ⟨calls, hcalls⟩ := h a i.arg (s.trace i).advance
    refine ⟨calls, ?_⟩
    rw [hdispatch, hcalls, registry_trace_advance]
  · rw [hdispatch]
    exact ⟨[], registry_trace_advance i s⟩

/-- A turn changes the registry by calls, whether the loop goes on after it or not. -/
theorem registry_turn [Action α] (h : Action.ByCalls α) (code : Code) (q : Option Interrupt)
    (s : State α) :
    ∃ calls, ((s.turn code q).elim id Prod.snd).registry = s.registry.after calls := by
  cases hready : (s.hear q).ready code with
  | error e =>
    rw [turn_of_error hready]
    exact ⟨[], rfl⟩
  | ok i =>
    obtain ⟨calls, hcalls⟩ := registry_dispatch h i (s.hear q)
    refine ⟨calls, ?_⟩
    rw [turn_of_ok hready]
    -- whichever way the loop goes, it takes the state that the dispatch leaves
    have hleft : ∀ x : Verdict × State α, (follow x).elim id Prod.snd = x.2 := by
      rintro ⟨v, t⟩
      cases v <;> rfl
    rw [hleft]
    exact hcalls

/-- What holds at the start and is handed on by hearing of requests and by turns holds wherever
the run dispatches an instruction, and that instruction is the one that the program counter
points at. -/
theorem forall_mem_trail [Action α] {code : Code} {P : State α → Prop}
    (hhear : ∀ q s, P s → P (s.hear q)) (hturn : ∀ q s t, P s → s.turn code q = .inl t → P t)
    {signals : Signals} {fuel n : Nat} {s : State α} (hs : P s) :
    ∀ x ∈ trail code signals fuel n s, P x.1 ∧ code.fetch? x.1.pc = some x.2 := by
  induction fuel generalizing n s with
  | zero =>
    intro x hx
    cases hx
  | succ fuel ih =>
    intro x hx
    rw [trail, List.mem_append] at hx
    rcases hx with hx | hx
    · rw [dispatched] at hx
      split at hx
      · next i hready =>
        rw [List.mem_singleton] at hx
        rw [hx]
        exact ⟨hhear _ _ hs, (ready_eq_ok_iff.mp hready).1⟩
      · cases hx
    · cases ht : s.turn code (signals n) with
      | inl t =>
        rw [ht] at hx
        exact ih (hturn _ s t hs ht) x hx
      | inr y =>
        rw [ht] at hx
        cases hx

/-! ## The failure of a number that is not registered -/

/-- Nothing that stops a run at the head of the loop looks like a number that is not registered. -/
theorem ready_ne_unregistered {code : Code} {s u : State α} {i : Instruction} :
    s.ready code ≠ .error (u.unregistered i) := by
  intro h
  rcases ready_error_cases h with ⟨-, he⟩ | ⟨-, -, he⟩ | ⟨-, -, q, -, he⟩
  · have hkind : FaultKind.invalidInstruction = FaultKind.segfault :=
      congrArg Fault.kind (Failure.fault.inj he)
    exact absurd hkind (by decide)
  · cases he
  · cases he

theorem haltEnding_ne_unregistered {s u : State α} {i : Instruction} :
    s.haltEnding ≠ .failure (u.unregistered i) := by
  rw [haltEnding]
  cases s.peek? with
  | some v => exact Ending.noConfusion
  | none =>
    intro h
    have hkind : FaultKind.stackFail = FaultKind.invalidInstruction :=
      congrArg Fault.kind (Failure.fault.inj (Ending.failure.inj h))
    exact absurd hkind (by decide)

end State

/-- A turn that ends a run over code that keeps its meaning with the failure of a number that is not
registered has dispatched an instruction whose action failed that way by itself. -/
theorem State.turn_unregistered [Action α] {r : Registry α} {program : Bytes} {code : Code}
    {s t u : State α} {q : Option Interrupt} {i : Instruction}
    (hs : KeepsMeaning r program code s.registry)
    (h : s.turn code q = .inr (.failure (u.unregistered i), t)) :
    ∃ x ∈ s.dispatched code q, ∃ a, x.1.registry.action? x.2.op = some a ∧
      (Action.exec a x.2.arg (x.1.trace x.2).advance).1 = .failed (u.unregistered i) := by
  cases hready : (s.hear q).ready code with
  | error e =>
    rw [turn_of_error hready] at h
    obtain ⟨he, -⟩ := Prod.mk.inj (Sum.inr.inj h)
    rw [Ending.failure.inj he] at hready
    exact absurd hready ready_ne_unregistered
  | ok j =>
    obtain ⟨a, ha⟩ := hs.exists_action (ready_eq_ok_iff.mp hready).1
    have hdispatch : (s.hear q).dispatch j = Action.exec a j.arg ((s.hear q).trace j).advance := by
      have haction : ((s.hear q).trace j).advance.registry.action? j.op = some a := by
        rw [registry_trace_advance]
        exact ha
      rw [dispatch, haction]
    rw [turn_of_ok hready, hdispatch] at h
    refine ⟨(s.hear q, j), ?_, a, ha, ?_⟩
    · rw [dispatched_of_ok hready]
      exact List.mem_singleton_self _
    · revert h
      generalize Action.exec a j.arg ((s.hear q).trace j).advance = x
      obtain ⟨v, t'⟩ := x
      intro h
      cases v with
      | more => cases h
      | halt => exact absurd (Prod.mk.inj (Sum.inr.inj h)).1 haltEnding_ne_unregistered
      | failed e =>
        show Verdict.failed e = _
        rw [Ending.failure.inj (Prod.mk.inj (Sum.inr.inj h)).1]
      | crashed m => cases (Prod.mk.inj (Sum.inr.inj h)).1

/-! ## Runs -/

/-- **Assembled code keeps its meaning.** Whatever calls are made after a program was assembled,
each number of its code resolves to the name written on its line and to what the name meant then. It
does so before a run, at every instruction that a run dispatches, and after it, also where the
instructions themselves make calls. So a run never finds a number that is not registered: if it ends
with a failure that says so, it is an instruction that returned this failure. -/
theorem run_keepsMeaning_after [Action α] (hactions : Action.ByCalls α) {r : Registry α}
    (hr : r.Reachable) (hsize : r.size ≤ 2 ^ 63) {program : Bytes} {code : Code}
    (h : assemble r program = .ok code) (calls : List (Registry.Call α)) :
    KeepsMeaning r program code (r.after calls) ∧
    ∀ (s : State α) (signals : Signals) (fuel : Nat), s.registry = r.after calls →
      let trail := State.trail code signals fuel 0 (s.enter code)
      (∀ x ∈ trail, KeepsMeaning r program code x.1.registry ∧
        ∃ a, x.1.registry.action? x.2.op = some a) ∧
      ∀ ending t, s.run code signals fuel = some (ending, t) →
        KeepsMeaning r program code t.registry ∧
        ∀ (u : State α) (i : Instruction), ending = .failure (u.unregistered i) →
          ∃ x ∈ trail, ∃ a, x.1.registry.action? x.2.op = some a ∧
            (Action.exec a x.2.arg (x.1.trace x.2).advance).1 = .failed (u.unregistered i) := by
  have hkeeps : ∀ later, KeepsMeaning r program code (r.after later) :=
    keepsMeaning_after hr hsize h
  refine ⟨hkeeps calls, ?_⟩
  intro s signals fuel hs trail
  -- along the run, the registry is always one that calls have led to
  let P : State α → Prop := fun u => ∃ later, u.registry = r.after later
  have hP : ∀ {u}, P u → KeepsMeaning r program code u.registry := by
    rintro u ⟨later, hu⟩
    rw [hu]
    exact hkeeps later
  have hstep : ∀ q u, P u → P ((u.turn code q).elim id Prod.snd) := by
    rintro q u ⟨later, hu⟩
    obtain ⟨more, hmore⟩ := State.registry_turn hactions code q u
    refine ⟨later ++ more, ?_⟩
    rw [hmore, hu, Registry.after_append]
  have hturn : ∀ q u v, P u → u.turn code q = .inl v → P v := by
    intro q u v hu hv
    have hleft := hstep q u hu
    rwa [hv] at hleft
  have hstart : P (s.enter code) := by
    refine ⟨calls, ?_⟩
    rw [State.enter_eq]
    exact hs
  constructor
  · intro x hx
    obtain ⟨hx, hfetch⟩ := State.forall_mem_trail (fun _ _ hu => hu) hturn hstart x hx
    exact ⟨hP hx, (hP hx).exists_action hfetch⟩
  · intro ending t hrun
    obtain ⟨before, v, hv, hlast, htrail⟩ :=
      State.loop_last (P := fun _ => P) (fun n u w hu hw => hturn (signals n) u w hu hw) hstart hrun
    constructor
    · have hleft := hstep (signals (0 + before.length)) v hv
      rw [hlast] at hleft
      exact hP hleft
    · rintro u i rfl
      obtain ⟨x, hx, hfailed⟩ := State.turn_unregistered (hP hv) hlast
      refine ⟨x, ?_, hfailed⟩
      show x ∈ State.trail code signals fuel 0 (s.enter code)
      rw [htrail]
      exact List.mem_append_right _ hx

/-! ## Instructions that teach the machine others -/

/-- The standard instructions, and instructions that register one of these under a name. -/
inductive Teaching where
  | standard (i : Standard)
  | teach (name : Bytes) (i : Standard)

namespace Teaching

/-- Carries out an instruction. -/
def exec : Teaching → Value → State Teaching → Verdict × State Teaching
  | standard i, arg, s => i.exec arg s
  | teach name i, _, s =>
    match s.registry.register name (some (standard i)) with
    | .ok (_, r) => (.more, { s with registry := r })
    | .error e => (.crashed e.message, s)

instance : Action Teaching := ⟨exec⟩

theorem byCalls : Action.ByCalls Teaching := by
  intro a arg s
  cases a with
  | standard i =>
    refine ⟨[], ?_⟩
    show (Standard.exec i arg s).2.registry = s.registry
    rw [Standard.exec_eq_amend]
    rfl
  | teach name i =>
    refine ⟨[.register name (some (standard i))], ?_⟩
    show (exec (teach name i) arg s).2.registry =
      Registry.Call.apply s.registry (.register name (some (standard i)))
    rw [exec, Registry.Call.apply]
    cases s.registry.register name (some (standard i)) <;> rfl

/-- The standard instructions and one that gives the name of addition to division. -/
def redefinable : Registry Teaching :=
  Registry.empty.after
    [.registerStandard standard, .register (utf8 "REDEFINE") (some (teach (utf8 "ADD") .div))]

/-- Calls that give another name away; one of them is refused. -/
def disturbance : List (Registry.Call Teaching) :=
  [.register (utf8 "DUP") (some (standard .pop)), .register [] none, .describe (utf8 "ADD") []]

end Teaching

/-- Numbers are added although the program has renamed addition and duplication was renamed before
it ran. -/
theorem run_keepsMeaning_after_addition :
    let program := utf8 "LOAD_CONST 6\nREDEFINE\nDUP\nADD\nEXIT"
    let later := Teaching.redefinable.after Teaching.disturbance
    Action.ByCalls Teaching ∧ Teaching.redefinable.Reachable ∧ ∃ code t,
      assemble Teaching.redefinable program = .ok code ∧
      KeepsMeaning Teaching.redefinable program code later ∧
      (State.new later false).run code .none 6 = some (.value 12, t) ∧
      t.registry.meaning? (utf8 "ADD") = some (.standard .div) ∧
      KeepsMeaning Teaching.redefinable program code t.registry := by
  intro program later
  have hr : Teaching.redefinable.Reachable := Registry.Reachable.empty.after _
  have hlines : programLines program =
      [utf8 "LOAD_CONST 6", utf8 "REDEFINE", utf8 "DUP", utf8 "ADD", utf8 "EXIT"] := by
    rw [programLines_eq]
    decide
  have hcode : assemble Teaching.redefinable program =
      .ok #[⟨1, 6⟩, ⟨13, 0⟩, ⟨8, 0⟩, ⟨4, 0⟩, ⟨2, 0⟩] := by
    rw [assemble, hlines]
    simp only [assembleLines, assembleLine, split_eq_splitOn (by decide : ascii ' ' < 128)]
    decide
  have hrun : ∃ t, (State.new (Teaching.redefinable.after Teaching.disturbance) false).run
      #[⟨1, 6⟩, ⟨13, 0⟩, ⟨8, 0⟩, ⟨4, 0⟩, ⟨2, 0⟩] .none 6 = some (.value 12, t) ∧
      t.registry.meaning? (utf8 "ADD") = some (.standard .div) := by
    refine ⟨_, rfl, ?_⟩
    rfl
  obtain ⟨t, hrun, hadd⟩ := hrun
  obtain ⟨hkeeps, hruns⟩ :=
    run_keepsMeaning_after Teaching.byCalls hr (by decide) hcode Teaching.disturbance
  obtain ⟨-, hend⟩ := hruns (State.new later false) .none 6 rfl
  exact ⟨Teaching.byCalls, hr, _, t, hcode, hkeeps, hrun, hadd, (hend _ _ hrun).1⟩

end StackMachine
