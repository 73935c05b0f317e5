import StackMachine.Standard

/-!
# Registries that registrations lead to

`Registry.Reachable` are the registries that come about from the empty one by registering and
describing instructions; a registration that is refused leaves no registry behind. In each of them
every entry has a name (`Reachable.name_ne_nil`).

`Tables.Binds` says what a name stands for without saying how it is found: an entry with that name
which no later entry shares it with. Looking a name up finds exactly this (`lookup?_eq_some_iff`).
-/

namespace StackMachine

open Text

namespace Registry

variable {α : Type}

/-! ## What a name stands for -/

/-- Looking a name up finds what it stands for. -/
theorem lookup?_eq_some_iff {r : Registry α} {name : Bytes} {id : Nat} :
    r.lookup? name = some id ↔ r.Binds name id :=
  r.inStep.latest name id

/-! ## Registrations -/

/-- The registries that registrations and descriptions lead to. -/
inductive Reachable : Registry α → Prop
  | empty : Reachable .empty
  | register {r r' : Registry α} {name : Bytes} {action : Option α} {id : Nat} :
      Reachable r → r.register name action = .ok (id, r') → Reachable r'
  | describe {r : Registry α} (name doc : Bytes) : Reachable r → Reachable (r.describe name doc)

/-- An accepted registration has a name and adds one entry. -/
theorem register_eq_ok {r r' : Registry α} {name : Bytes} {action : Option α} {id : Nat}
    (h : r.register name action = .ok (id, r')) :
    name ≠ [] ∧ ∃ a, action = some a ∧ id = r.size ∧ r' = r.push name a := by
  rw [register, Tables.checked.eq_def] at h
  by_cases hname : name = []
  · rw [if_pos hname] at h
    cases h
  · rw [if_neg hname] at h
    cases action with
    | none => cases h
    | some a =>
      obtain ⟨rfl, rfl⟩ := Prod.mk.inj (Except.ok.inj h)
      exact ⟨hname, a, rfl, rfl, rfl⟩

/-- A registration with a name and an action is accepted. -/
theorem register_of_ne_nil (r : Registry α) {name : Bytes} (hname : name ≠ []) (a : α) :
    r.register name (some a) = .ok (r.size, r.push name a) := by
  rw [register, Tables.checked, if_neg hname]
  rfl

/-- Every entry of a registry has a name. -/
theorem Reachable.name_ne_nil {r : Registry α} (h : r.Reachable) :
    ∀ e ∈ r.entries, e.name ≠ [] := by
  induction h with
  | empty => simp [Registry.empty, Tables.empty]
  | register _ hok ih =>
    obtain ⟨hname, a, -, -, rfl⟩ := register_eq_ok hok
    intro e he
    rcases Array.mem_push.mp he with he | rfl
    · exact ih e he
    · exact hname
  | describe _ _ _ ih => exact ih

/-- The empty name stands for nothing. -/
theorem Reachable.ne_nil_of_binds {r : Registry α} (h : r.Reachable) {name : Bytes} {id : Nat}
    (hbinds : r.Binds name id) : name ≠ [] := by
  obtain ⟨e, he, rfl⟩ := Option.map_eq_some_iff.mp hbinds.1
  exact h.name_ne_nil e (Array.mem_of_getElem? he)

/-- The standard instructions can be registered in any registry. -/
theorem Reachable.addStandard {r : Registry α} (h : r.Reachable) (embed : Standard → α) :
    (r.addStandard embed).Reachable := by
  rw [Registry.addStandard]
  generalize Standard.all = is
  induction is generalizing r with
  | nil => exact h
  | cons i is ih =>
    rw [List.foldl_cons]
    have hname : utf8 i.name ≠ [] := by cases i <;> decide
    exact ih (.describe _ _ (.register h (r.register_of_ne_nil hname (embed i))))

theorem standard_reachable : Registry.standard.Reachable := Reachable.empty.addStandard id

end Registry

end StackMachine
