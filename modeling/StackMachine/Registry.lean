import StackMachine.Instruction

/-!
# The instruction registry

A registry gives operation numbers their meaning. It keeps three tables: the entries by number, the
number that each name stands for, and descriptions by name. Registering writes the first two: the
entry is put behind the others, and its name is made to stand for its number, whatever it stood for
before. An entry's number is its position and never changes. Registering a name again therefore
rebinds the name and leaves the older number, and all code that uses it, alone.

The tables are in step (`Tables.InStep`) if each name stands for the latest entry that bears it.
The empty tables are, and what is written keeps them so; a `Registry` is tables that are in step.

The registry is generic in what an entry does; `StackMachine.Action` says how that is carried out.
-/

namespace StackMachine

open Text

/-! ## Tables from names -/

/-- What is kept under names, in no particular order. -/
abbrev Table (β : Type) := List (Bytes × β)

namespace Table

variable {β : Type}

/-- What is kept under a name. -/
def read? (t : Table β) (name : Bytes) : Option β := t.lookup name

/-- Keeps something under a name, in place of what was there. -/
def write (t : Table β) (name : Bytes) (x : β) : Table β :=
  (name, x) :: t.filter fun row => row.1 ≠ name

/-- The names under which something is kept. -/
def keys (t : Table β) : List Bytes := t.map (·.1)

theorem read?_filter_of_ne (t : Table β) {name other : Bytes} (h : other ≠ name) :
    read? (t.filter fun row => row.1 ≠ name) other = t.read? other := by
  rw [read?, read?]
  induction t with
  | nil => rfl
  | cons row t ih =>
    by_cases hrow : row.1 = name
    · have hother : (other == row.1) = false := beq_eq_false_iff_ne.mpr (hrow ▸ h)
      rw [List.filter_cons_of_neg (by simp [hrow]), List.lookup_cons, hother, ih]
    · rw [List.filter_cons_of_pos (by simp [hrow]), List.lookup_cons, List.lookup_cons, ih]

/-- A name holds what was written under it last, and other names hold what they did. -/
theorem read?_write (t : Table β) (name other : Bytes) (x : β) :
    (t.write name x).read? other = if other = name then some x else t.read? other := by
  by_cases h : other = name
  · rw [if_pos h, h, read?, write, List.lookup_cons_self]
  · have hother : (other == name) = false := beq_eq_false_iff_ne.mpr h
    rw [if_neg h, ← read?_filter_of_ne t h, read?, write, List.lookup_cons, hother, read?]

/-- Writing under a name leaves it among the names once. -/
theorem nodup_keys_write {t : Table β} (h : t.keys.Nodup) (name : Bytes) (x : β) :
    (t.write name x).keys.Nodup := by
  rw [keys, write, List.map_cons, List.nodup_cons]
  constructor
  · simp
  · exact h.sublist (List.filter_sublist.map _)

end Table

/-! ## The tables of a registry -/

/-- A registered instruction. -/
structure Entry (α : Type) where
  name : Bytes
  action : α

/-- The tables of a registry. -/
structure Tables (α : Type) where
  /-- Registered instructions by number. -/
  entries : Array (Entry α) := #[]
  /-- The number that each name stands for. -/
  byName : Table Nat := []
  /-- Descriptions by name. -/
  docs : Table Bytes := []

namespace Tables

variable {α : Type}

/-- Tables without instructions. -/
def empty : Tables α := {}

/-- How many numbers have been handed out. -/
def size (t : Tables α) : Nat := t.entries.size

/-- The entry that a number resolves to. -/
def entry? (t : Tables α) (id : Int64) : Option (Entry α) :=
  if id < 0 then none else t.entries[id.toNatClampNeg]?

/-- The name registered under a number. -/
def name? (t : Tables α) (id : Int64) : Option Bytes := (t.entry? id).map (·.name)

/-- The action registered under a number. -/
def action? (t : Tables α) (id : Int64) : Option α := (t.entry? id).map (·.action)

/-- The number that a name stands for. -/
def lookup? (t : Tables α) (name : Bytes) : Option Nat := t.byName.read? name

/-- The number by which a name is sorted. -/
def rank (t : Tables α) (name : Bytes) : Nat := (t.lookup? name).getD 0

/-- The names that stand for a number, sorted by those numbers. -/
def names (t : Tables α) : List Bytes :=
  t.byName.keys.mergeSort fun a b => t.rank a ≤ t.rank b

/-- The tables with one more entry, whose number is the old size. Its name stands for it. -/
def push (t : Tables α) (name : Bytes) (action : α) : Tables α :=
  { t with
    entries := t.entries.push ⟨name, action⟩
    byName := t.byName.write name t.size }

/-- Why an instruction cannot be registered. -/
inductive RegisterError where
  | emptyName
  | noAction (name : Bytes)
  deriving DecidableEq, Repr

/-- The wording of a refused registration. -/
def RegisterError.message : RegisterError → Bytes
  | .emptyName => utf8 "vm: empty instruction name"
  | .noAction name => utf8 "vm: nil action for instruction " ++ name

/-- The action of an instruction that is to be registered. It needs a name, and then an action. -/
def checked (name : Bytes) (action : Option α) : Except RegisterError α :=
  if name = [] then .error .emptyName
  else match action with
    | none => .error (.noAction name)
    | some a => .ok a

/-- Registers an instruction under the next number. -/
def register (t : Tables α) (name : Bytes) (action : Option α) :
    Except RegisterError (Nat × Tables α) := do
  let a ← checked name action
  .ok (t.size, t.push name a)

/-- Attaches a description to a name, in place of an earlier one. -/
def describe (t : Tables α) (name doc : Bytes) : Tables α :=
  { t with docs := t.docs.write name doc }

/-- The description of a name, empty when there is none. -/
def doc (t : Tables α) (name : Bytes) : Bytes := (t.docs.read? name).getD []

/-! ## Tables in step -/

/-- The number is that of the latest entry with the name. -/
def Binds (t : Tables α) (name : Bytes) (id : Nat) : Prop :=
  t.entries[id]?.map (·.name) = some name ∧
    ∀ j, id < j → t.entries[j]?.map (·.name) ≠ some name

/-- A name stands for the latest entry that bears it, and is written down once. -/
structure InStep (t : Tables α) : Prop where
  once : t.byName.keys.Nodup
  latest : ∀ name id, t.lookup? name = some id ↔ t.Binds name id

theorem getElem?_push (t : Tables α) (name : Bytes) (a : α) (j : Nat) :
    (t.push name a).entries[j]? = if j = t.size then some ⟨name, a⟩ else t.entries[j]? :=
  Array.getElem?_push

theorem lookup?_push (t : Tables α) (name other : Bytes) (a : α) :
    (t.push name a).lookup? other = if other = name then some t.size else t.lookup? other :=
  t.byName.read?_write name other t.size

/-- The name of the latest entry stands for nothing else. -/
theorem binds_push_self (t : Tables α) (name : Bytes) (a : α) {id : Nat} :
    (t.push name a).Binds name id ↔ id = t.size := by
  have hlast : (t.push name a).entries[t.size]?.map (·.name) = some name := by
    rw [getElem?_push, if_pos rfl]
    rfl
  constructor
  · rintro ⟨hname, hlater⟩
    have hle : t.size ≤ id := Nat.le_of_not_lt fun hlt => hlater _ hlt hlast
    have hsize : id < t.size + 1 := by
      obtain ⟨e, he, -⟩ := Option.map_eq_some_iff.mp hname
      obtain ⟨hid, -⟩ := Array.getElem?_eq_some_iff.mp he
      rwa [push, Array.size_push] at hid
    omega
  · rintro rfl
    refine ⟨hlast, fun j hj => ?_⟩
    rw [getElem?_push, if_neg (by omega), Array.getElem?_eq_none (Nat.le_of_lt hj)]
    simp

/-- Other names stand for what they did. -/
theorem binds_push_of_ne (t : Tables α) {name other : Bytes} (h : other ≠ name) (a : α)
    {id : Nat} : (t.push name a).Binds other id ↔ t.Binds other id := by
  have hsame : ∀ j : Nat, (t.push name a).entries[j]?.map (·.name) = some other ↔
      t.entries[j]?.map (·.name) = some other := by
    intro j
    rw [getElem?_push]
    by_cases hj : j = t.size
    · rw [if_pos hj, hj, size, Array.getElem?_eq_none (Nat.le_refl _)]
      simp [h.symm]
    · rw [if_neg hj]
  simp only [Binds, ne_eq, hsame]

/-- Nothing stands for a number where nothing is registered. -/
theorem InStep.empty : (empty : Tables α).InStep where
  once := List.nodup_nil
  latest name id := by simp [Tables.empty, lookup?, Table.read?, Binds]

/-- What registering writes keeps the tables in step. -/
theorem InStep.push {t : Tables α} (h : t.InStep) (name : Bytes) (a : α) :
    (t.push name a).InStep where
  once := Table.nodup_keys_write h.once name t.size
  latest other id := by
    rw [lookup?_push]
    by_cases hother : other = name
    · rw [if_pos hother, hother, binds_push_self, Option.some.injEq]
      exact eq_comm
    · rw [if_neg hother, binds_push_of_ne t hother]
      exact h.latest other id

/-- What describing writes keeps the tables in step. -/
theorem InStep.describe {t : Tables α} (h : t.InStep) (name doc : Bytes) :
    (t.describe name doc).InStep where
  once := h.once
  latest := h.latest

end Tables

/-! ## Registries -/

/-- Registered instructions by number, what names stand for, and descriptions by name. -/
structure Registry (α : Type) extends Tables α where
  inStep : toTables.InStep

namespace Registry

variable {α : Type}

/-- The registry without instructions. -/
def empty : Registry α := ⟨.empty, .empty⟩

/-- The registry with one more entry, whose number is the old size. -/
def push (r : Registry α) (name : Bytes) (action : α) : Registry α :=
  ⟨r.toTables.push name action, r.inStep.push name action⟩

/-- Registers an instruction under the next number. -/
def register (r : Registry α) (name : Bytes) (action : Option α) :
    Except Tables.RegisterError (Nat × Registry α) := do
  let a ← Tables.checked name action
  .ok (r.size, r.push name a)

/-- Attaches a description to a name, in place of an earlier one. -/
def describe (r : Registry α) (name doc : Bytes) : Registry α :=
  ⟨r.toTables.describe name doc, r.inStep.describe name doc⟩

end Registry

end StackMachine
