import Mathlib.Data.List.Perm.Subperm
import StackMachine.Proofs.Arrivals
import StackMachine.Proofs.Rebinding

/-!
# Code whose jumps lead forward

Nothing bounds a run but a step limit, and code that jumps back may run for ever. Where every jump
leads beyond the place where it stands, or to a negative address, the program counter only grows: an
instruction that does not jump leaves it one further, where it may wrap to a negative address at the
largest word. A negative address ends the run at the head of the loop. So the addresses of the
instructions that a run dispatches increase strictly (`pairwise_visited`), and the run ends before
there are more of them than instructions in the code.
-/

namespace StackMachine

/-- Every jump of the code has a negative target or one beyond its own address. The registry says
which instructions are jumps. -/
def Code.LeadsForward (r : Registry Standard) (code : Code) : Prop :=
  ∀ (k : Nat) (i : Instruction) (a : Standard), code[k]? = some i → r.action? i.op = some a →
    a = .jmp ∨ a = .jmpz →
    i.arg.toInt < 0 ∨ (k : Int) < i.arg.toInt

theorem Code.fetch?_eq_some {code : Code} {pc : Int64} {i : Instruction}
    (h : code.fetch? pc = some i) :
    code[pc.toNatClampNeg]? = some i ∧ (pc.toNatClampNeg : Int) = pc.toInt ∧
    pc.toNatClampNeg < code.size := by
  obtain ⟨hlow, hhigh⟩ := (code.fetch?_isSome_iff pc).mp (Option.isSome_of_eq_some h)
  have hcast := toNatClampNeg_of_nonneg hlow
  rw [Code.fetch?] at h
  split at h
  · cases h
  · exact ⟨h, hcast, by omega⟩

/-- Adding one to a word that is not negative makes it larger or, at the largest word, negative. -/
theorem add_one_neg_or_lt {x : Int64} (h : 0 ≤ x.toInt) :
    (x + 1).toInt < 0 ∨ x.toInt < (x + 1).toInt := by
  have hhigh := x.toInt_lt
  rw [Int64.toInt_add, Int64.toInt_one, Int.bmod_def]
  split <;> omega

/-- Only jumps set the program counter, and they set it to their argument. -/
theorem Standard.pc_exec {α : Type} (a : Standard) (arg : Value) (s : State α) :
    (exec a arg s).2.pc = s.pc ∨ (a = jmp ∨ a = jmpz) ∧ (exec a arg s).2.pc = arg := by
  rw [exec_eq_effect]
  obtain ⟨pc, stack, debug, registry, stdout, maxSteps, steps, output, entered, interrupt⟩ := s
  cases a with
  | jmp => exact .inr ⟨.inl rfl, rfl⟩
  | jmpz =>
    cases stack with
    | nil => exact .inl rfl
    | cons v rest =>
      by_cases hv : v = 0
      · exact .inr ⟨.inr rfl, if_pos hv⟩
      · exact .inl (if_neg hv)
  | loadConst => exact .inl rfl
  | print | exit | pop | dup | write | writeChar => cases stack <;> exact .inl rfl
  | add | eq | neq => rcases stack with _ | ⟨v, _ | ⟨w, rest⟩⟩ <;> exact .inl rfl
  | div =>
    rcases stack with _ | ⟨v, _ | ⟨w, rest⟩⟩
    · exact .inl rfl
    · exact .inl rfl
    · by_cases hv : v = 0 <;> simp [effect, hv]

namespace State

variable {code : Code} {signals : Signals} {r : Registry Standard} {s t : State Standard}
  {fuel n : Nat}

/-- A dispatch moves past the instruction or jumps. -/
theorem pc_after (i : Instruction) (s : State Standard) :
    (s.after i).pc = s.pc + 1 ∨
      ∃ a, s.registry.action? i.op = some a ∧ (a = .jmp ∨ a = .jmpz) ∧ (s.after i).pc = i.arg := by
  show (s.deed i).2.pc = s.pc + 1 ∨ ∃ a, _ ∧ _ ∧ (s.deed i).2.pc = i.arg
  rw [deed]
  cases s.registry.action? i.op with
  | none => exact .inl rfl
  | some a =>
    rcases a.pc_exec i.arg s.advance.bare with hsame | ⟨hjump, harg⟩
    · exact .inl hsame
    · exact .inr ⟨a, rfl, hjump, harg⟩

/-- The program counter is negative or at least `low`, and the registry is still `r`. -/
def From (r : Registry Standard) (low : Int) (s : State Standard) : Prop :=
  s.registry = r ∧ (s.pc.toInt < 0 ∨ low ≤ s.pc.toInt)

/-- A turn that goes on leads beyond the instruction that it dispatches. -/
theorem from_of_turn (hforward : code.LeadsForward r) (hs : s.registry = r) {q : Option Interrupt}
    (h : s.turn code q = .inl t) : 0 ≤ s.pc.toInt ∧ t.From r (s.pc.toInt + 1) := by
  obtain ⟨i, hready, -, rfl⟩ := turn_eq_inl h
  obtain ⟨hfetch, -, -⟩ := ready_eq_ok_iff.mp hready
  obtain ⟨hget, hcast, -⟩ := Code.fetch?_eq_some hfetch
  have hlow : 0 ≤ s.pc.toInt := by
    rw [show s.pc = (s.hear q).pc from rfl, ← hcast]
    exact Int.natCast_nonneg _
  refine ⟨hlow, hs, ?_⟩
  rcases (s.hear q).pc_after i with hnext | ⟨a, haction, hjump, htarget⟩
  · rw [hnext]
    exact (add_one_neg_or_lt hlow).imp_right Int.add_one_le_of_lt
  · rw [show (s.hear q).registry = r from hs] at haction
    rw [htarget]
    refine (hforward _ i a hget haction hjump).imp_right fun hlt => ?_
    rw [hcast] at hlt
    exact Int.add_one_le_of_lt hlt

/-- No instruction is dispatched below the address where a run begins. -/
theorem le_pc_of_mem_trail (hforward : code.LeadsForward r) {low : Int} (hs : s.From r low) :
    ∀ x ∈ trail code signals fuel n s, low ≤ x.1.pc.toInt ∧ code.fetch? x.1.pc = some x.2 := by
  intro x hx
  have hturn : ∀ (q : Option Interrupt) (u t : State Standard), u.From r low →
      u.turn code q = .inl t → t.From r low := by
    rintro q u t ⟨hregistry, hpc⟩ ht
    obtain ⟨hlow, hnext, hfurther⟩ := from_of_turn hforward hregistry ht
    exact ⟨hnext, hfurther.imp_right fun h => by omega⟩
  obtain ⟨⟨-, hpc⟩, hfetch⟩ := forall_mem_trail (P := From r low) (fun _ _ h => h) hturn hs x hx
  obtain ⟨-, hcast, -⟩ := Code.fetch?_eq_some hfetch
  exact ⟨by omega, hfetch⟩

/-- The addresses of the instructions that a run dispatches, in order. -/
def visited (code : Code) (signals : Signals) (fuel : Nat) (s : State Standard) : List Nat :=
  (trail code signals fuel 0 (s.enter code)).map fun x => x.1.pc.toNatClampNeg

theorem pairwise_trail (hforward : code.LeadsForward r) (hs : s.registry = r) :
    (trail code signals fuel n s).Pairwise fun x y => x.1.pc.toInt < y.1.pc.toInt := by
  induction fuel generalizing n s with
  | zero => exact .nil
  | succ fuel ih =>
    rw [trail, List.pairwise_append]
    cases ht : s.turn code (signals n) with
    | inr y =>
      refine ⟨?_, .nil, fun _ _ _ hy => by cases hy⟩
      rw [dispatched]
      split
      · exact List.pairwise_singleton _ _
      · exact .nil
    | inl t =>
      obtain ⟨i, hi⟩ := dispatched_of_turn ht
      obtain ⟨-, hfrom⟩ := from_of_turn hforward hs ht
      rw [hi]
      refine ⟨List.pairwise_singleton _ _, ih hfrom.1, fun x hx y hy => ?_⟩
      obtain ⟨hle, -⟩ := le_pc_of_mem_trail hforward hfrom y hy
      rw [List.mem_singleton.mp hx]
      exact Int.lt_of_add_one_le hle

/-- A run visits addresses of the code, each further on than the one before. -/
theorem pairwise_visited (hforward : code.LeadsForward s.registry) :
    (visited code signals fuel s).Pairwise (· < ·) ∧
    ∀ k ∈ visited code signals fuel s, k < code.size := by
  have hfetch : ∀ x ∈ trail code signals fuel 0 (s.enter code),
      (x.1.pc.toNatClampNeg : Int) = x.1.pc.toInt ∧ x.1.pc.toNatClampNeg < code.size := by
    intro x hx
    have hstart : (s.enter code).From s.registry (s.enter code).pc.toInt :=
      ⟨registry_enter code s, .inr le_rfl⟩
    obtain ⟨-, hfetch⟩ := le_pc_of_mem_trail hforward hstart x hx
    exact (Code.fetch?_eq_some hfetch).2
  constructor
  · rw [visited, List.pairwise_map]
    refine (pairwise_trail hforward (registry_enter code s)).imp_of_mem fun {x y} hx hy hlt => ?_
    have hx := (hfetch x hx).1
    have hy := (hfetch y hy).1
    omega
  · intro k hk
    obtain ⟨x, hx, rfl⟩ := List.mem_map.mp hk
    exact (hfetch x hx).2

theorem nodup_visited (hforward : code.LeadsForward s.registry) :
    (visited code signals fuel s).Nodup :=
  (pairwise_visited hforward).1.imp Nat.ne_of_lt

theorem length_visited_le (hforward : code.LeadsForward s.registry) :
    (visited code signals fuel s).length ≤ code.size := by
  have hbound : ∀ k ∈ visited code signals fuel s, k < code.size := (pairwise_visited hforward).2
  have hsubperm :=
    List.Nodup.subperm (nodup_visited hforward) fun k hk => List.mem_range.mpr (hbound k hk)
  exact hsubperm.length_le.trans_eq List.length_range

/-- **Forward jumps end.** Code without jumps back comes to an end on every state over standard
instructions, whatever requests to stop arrive and whether or not there is a step limit. It takes at
most one turn more than the code has instructions. However long it is watched, it dispatches at most
as many instructions as the code has, and none twice. -/
theorem run_of_leadsForward (code : Code) (signals : Signals) (s : State Standard)
    (hforward : code.LeadsForward s.registry) :
    (∃ ending t, ∀ fuel, code.size < fuel → s.run code signals fuel = some (ending, t)) ∧
      ∀ fuel, (visited code signals fuel s).length ≤ code.size ∧
        (visited code signals fuel s).Nodup := by
  have hends : ∃ x, s.run code signals (code.size + 1) = some x := by
    refine Option.ne_none_iff_exists'.mp fun hnone => ?_
    obtain ⟨u, hu⟩ := run_eq_none_iff.mp hnone
    obtain ⟨before, hlength, -, htrail⟩ := hu.exists_trail
    have hlimit : (visited code signals (code.size + 1 + 0) s).length ≤ code.size :=
      length_visited_le hforward
    rw [visited, List.length_map, htrail, List.length_append, hlength] at hlimit
    omega
  obtain ⟨⟨ending, t⟩, hrun⟩ := hends
  exact ⟨⟨ending, t, fun fuel hfuel => loop_mono hrun hfuel⟩,
    fun fuel => ⟨length_visited_le hforward, nodup_visited hforward⟩⟩

/-- A jump over an instruction, a jump to a negative address, and an instruction that is never
reached. -/
def leaping : Code := #[⟨1, 0⟩, ⟨10, 3⟩, ⟨9, 4⟩, ⟨9, -7⟩, ⟨2, 0⟩]

theorem leadsForward_leaping : leaping.LeadsForward .standard := by
  intro k i a hget haction hjump
  rcases k with _ | _ | _ | _ | _ | k
  · obtain rfl := Option.some.inj hget
    rcases hjump with rfl | rfl <;> cases haction
  · obtain rfl := Option.some.inj hget
    exact .inr (by decide)
  · obtain rfl := Option.some.inj hget
    exact .inr (by decide)
  · obtain rfl := Option.some.inj hget
    exact .inl (by decide)
  · obtain rfl := Option.some.inj hget
    rcases hjump with rfl | rfl <;> cases haction
  · cases hget

/-- The run leaves out the third instruction and leaves the code to the left of its first. -/
theorem run_of_leadsForward_leaping :
    ∃ e t, leaping.LeadsForward (State.new .standard false).registry ∧
      (State.new .standard false).maxSteps = 0 ∧
      (∀ fuel, 5 < fuel →
        (State.new .standard false).run leaping Signals.none fuel = some (.failure e, t)) ∧
      t.pc = -7 ∧ visited leaping Signals.none 6 (State.new .standard false) = [0, 1, 3] := by
  obtain ⟨⟨ending, t, hrun⟩, -⟩ :=
    run_of_leadsForward leaping Signals.none (State.new .standard false) leadsForward_leaping
  have hsix := hrun 6 (by decide)
  obtain ⟨rfl, rfl⟩ := Prod.mk.inj (Option.some.inj hsix)
  exact ⟨_, _, leadsForward_leaping, rfl, hrun, rfl, by decide⟩

end State

end StackMachine
