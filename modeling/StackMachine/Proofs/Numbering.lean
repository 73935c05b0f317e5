import Mathlib.Data.Nat.Find
import Mathlib.Order.Bounds.Defs
import StackMachine.Proofs.Meanings

/-!
# Tables in step with the registrations that were made

Each call writes to the tables of a registry, or to none of them when it is refused
(`Tables.apply`). What the tables come to follows from the registrations that were made, in their
order (`Call.registrations`): a refused registration is none, a description is none, and registering
the standard instructions is thirteen.

Four things are shown along the calls. The tables stay in step (`InStep.after`), although a name
that is registered again leaves its older entries behind. The entries are the registrations
(`entries_after`), so that the number of an entry is how many came before it. The descriptions are
those given last (`docs_after`). And the tables are those of a registry to which the same calls are
made (`Registry.toTables_after`).

`Tables.Reflects` says what follows for everything that can be asked. The names are the keys of a
table, which may be taken up in any order, sorted by the numbers found under them. Any way of
sorting them so leads to the same list (`InStep.eq_names_of_sorts`), because no two names stand for
the same number.
-/

namespace StackMachine

open Text

theorem Standard.name_ne_nil (i : Standard) : utf8 i.name ≠ [] := by cases i <;> decide

variable {α : Type}

/-! ## What calls write -/

namespace Registry.Call

/-- The call that registers a plain function. The function is made an action first, so there always
is one. -/
def registerFunc {β : Type} (ofFunction : β → α) (name : Bytes) (f : β) : Call α :=
  .register name (some (ofFunction f))

/-- The registrations that a call makes. One without a name or without an action is refused. -/
def registrations : Call α → List (Entry α)
  | .register name action => if name = [] then [] else (action.map (Entry.mk name)).toList
  | .describe _ _ => []
  | .registerStandard embed => Standard.all.map fun i => ⟨utf8 i.name, embed i⟩

/-- The names that a call describes, with their descriptions. -/
def descriptions : Call α → List (Bytes × Bytes)
  | .register _ _ => []
  | .describe name doc => [(name, doc)]
  | .registerStandard _ => Standard.all.map fun i => (utf8 i.name, utf8 i.doc)

/-- The single calls that a call consists of. -/
def parts : Call α → List (Call α)
  | .registerStandard embed =>
    Standard.all.flatMap fun i =>
      [.register (utf8 i.name) (some (embed i)), .describe (utf8 i.name) (utf8 i.doc)]
  | c => [c]

end Registry.Call

namespace Tables

open Registry (Call)

/-- The tables after a registration. One that is refused changes nothing. -/
def registered (t : Tables α) (name : Bytes) (action : Option α) : Tables α :=
  match t.register name action with
  | .ok (_, t') => t'
  | .error _ => t

/-- The tables after a call. -/
def apply (t : Tables α) : Call α → Tables α
  | .register name action => t.registered name action
  | .describe name doc => t.describe name doc
  | .registerStandard embed =>
    Standard.all.foldl
      (fun t i =>
        (t.registered (utf8 i.name) (some (embed i))).describe (utf8 i.name) (utf8 i.doc)) t

/-- The tables after calls, made in this order. -/
def after (t : Tables α) (calls : List (Call α)) : Tables α := calls.foldl apply t

/-- The number that a single call hands out, if it does. -/
def number? (t : Tables α) : Call α → Option Nat
  | .register name action => (t.register name action).toOption.map (·.1)
  | _ => none

/-- The numbers that single calls hand out, one after the other. -/
def numbers (t : Tables α) : List (Call α) → List Nat
  | [] => []
  | c :: calls => (t.number? c).toList ++ numbers (t.apply c) calls

/-- A registration is refused if it lacks a name or an action, and otherwise writes an entry. -/
theorem register_cases (t : Tables α) (name : Bytes) (action : Option α) :
    (∃ a, name ≠ [] ∧ action = some a ∧ t.register name action = .ok (t.size, t.push name a)) ∨
    ((name = [] ∨ action = none) ∧ ∃ e, t.register name action = .error e) := by
  rw [register, checked.eq_def]
  by_cases hname : name = []
  · rw [if_pos hname]
    exact .inr ⟨.inl hname, _, rfl⟩
  · rw [if_neg hname]
    cases action with
    | none => exact .inr ⟨.inr rfl, _, rfl⟩
    | some a => exact .inl ⟨a, hname, rfl, rfl⟩

/-- A call that registers writes an entry or leaves everything as it is. -/
theorem apply_register_cases (t : Tables α) (name : Bytes) (action : Option α) :
    (∃ a, t.registered name action = t.push name a ∧
      (Call.register name action).registrations = [⟨name, a⟩] ∧
      t.number? (.register name action) = some t.size) ∨
    (t.registered name action = t ∧ (Call.register name action).registrations = [] ∧
      t.number? (.register name action) = none) := by
  rcases t.register_cases name action with ⟨a, hname, rfl, hok⟩ | ⟨hrefused, e, herror⟩
  · refine .inl ⟨a, ?_, ?_, ?_⟩
    · rw [registered, hok]
    · rw [Call.registrations, if_neg hname]
      rfl
    · rw [number?, hok]
      rfl
  · refine .inr ⟨?_, ?_, ?_⟩
    · rw [registered, herror]
    · rw [Call.registrations]
      rcases hrefused with hname | rfl
      · rw [if_pos hname]
      · exact ite_self _
    · rw [number?, herror]
      rfl

/-- A registration without a name or an action is refused and leaves everything as it is. -/
theorem register_of_lacking (t : Tables α) {name : Bytes} {action : Option α}
    (h : name = [] ∨ action = none) :
    (∃ e, t.register name action = .error e) ∧ t.apply (.register name action) = t := by
  rcases t.register_cases name action with ⟨a, hname, rfl, -⟩ | ⟨-, e, herror⟩
  · exact absurd h (by simp [hname])
  · refine ⟨⟨e, herror⟩, ?_⟩
    rw [apply, registered, herror]

theorem registered_of_ne_nil (t : Tables α) {name : Bytes} (hname : name ≠ []) (a : α) :
    t.registered name (some a) = t.push name a := by
  rw [registered, register, checked, if_neg hname]
  rfl

/-! ### The parts of a call -/

/-- A call does what its parts do one after the other. -/
theorem after_parts (t : Tables α) (c : Call α) : t.after c.parts = t.apply c := by
  cases c with
  | register name action => rfl
  | describe name doc => rfl
  | registerStandard embed =>
    rw [Call.parts, apply, after, List.foldl_flatMap]
    rfl

theorem after_flatMap_parts (t : Tables α) (calls : List (Call α)) :
    t.after (calls.flatMap Call.parts) = t.after calls := by
  rw [after, List.foldl_flatMap]
  exact congrArg (fun f => calls.foldl f t) (funext₂ after_parts)

/-- A call makes the registrations that its parts make. -/
theorem flatMap_registrations_parts (c : Call α) :
    c.parts.flatMap Call.registrations = c.registrations := by
  cases c with
  | register name action => exact List.append_nil _
  | describe name doc => rfl
  | registerStandard embed =>
    rw [Call.parts, Call.registrations, List.flatMap_assoc]
    generalize Standard.all = is
    induction is with
    | nil => rfl
    | cons i is ih =>
      have hname := i.name_ne_nil
      rw [List.flatMap_cons, List.map_cons, ih]
      simp [Call.registrations, hname]

/-- A part of a call has no other parts. -/
theorem parts_of_mem_parts {c d : Call α} (h : d ∈ c.parts) : d.parts = [d] := by
  cases c with
  | register name action =>
    obtain rfl := List.mem_singleton.mp h
    rfl
  | describe name doc =>
    obtain rfl := List.mem_singleton.mp h
    rfl
  | registerStandard embed =>
    rw [Call.parts, List.mem_flatMap] at h
    obtain ⟨i, -, hi⟩ := h
    rw [List.mem_cons, List.mem_singleton] at hi
    rcases hi with rfl | rfl
    · rfl
    · rfl

/-! ## The tables along calls -/

theorem InStep.registered {t : Tables α} (h : t.InStep) (name : Bytes) (action : Option α) :
    (t.registered name action).InStep := by
  rcases t.apply_register_cases name action with ⟨a, hpush, -⟩ | ⟨hsame, -⟩
  · rw [hpush]
    exact h.push name a
  · rw [hsame]
    exact h

/-- A call keeps the tables in step. -/
theorem InStep.apply {t : Tables α} (h : t.InStep) (c : Call α) : (t.apply c).InStep := by
  cases c with
  | register name action => exact h.registered name action
  | describe name doc => exact h.describe name doc
  | registerStandard embed =>
    rw [Tables.apply]
    generalize Standard.all = is
    induction is generalizing t with
    | nil => exact h
    | cons i is ih => exact ih ((h.registered _ _).describe _ _)

/-- Calls keep the tables in step. -/
theorem InStep.after {t : Tables α} (h : t.InStep) (calls : List (Call α)) :
    (t.after calls).InStep := by
  induction calls generalizing t with
  | nil => exact h
  | cons c calls ih => exact ih (h.apply c)

/-- The entries after a call are those before it and the registrations that it makes. -/
theorem entries_apply (t : Tables α) (c : Call α) :
    (t.apply c).entries.toList = t.entries.toList ++ c.registrations := by
  cases c with
  | register name action =>
    rw [apply]
    rcases t.apply_register_cases name action with ⟨a, ht, hlog, -⟩ | ⟨ht, hlog, -⟩
    · rw [ht, hlog, push, Array.toList_push]
    · rw [ht, hlog, List.append_nil]
  | describe name doc => exact (List.append_nil _).symm
  | registerStandard embed =>
    rw [apply, Call.registrations]
    -- for any list of instructions: the tables grow along it, so it is shown from all tables
    generalize Standard.all = is
    induction is generalizing t with
    | nil => exact (List.append_nil _).symm
    | cons i is ih =>
      rw [List.foldl_cons, ih, List.map_cons, t.registered_of_ne_nil i.name_ne_nil]
      simp [push, describe]

/-- The entries after calls are those before them and the registrations that they make. -/
theorem entries_after (t : Tables α) (calls : List (Call α)) :
    (t.after calls).entries.toList = t.entries.toList ++ calls.flatMap Call.registrations := by
  induction calls generalizing t with
  | nil => exact (List.append_nil _).symm
  | cons c calls ih =>
    have hrest := ih (t.apply c)
    rw [entries_apply, List.append_assoc, ← List.flatMap_cons] at hrest
    exact hrest

/-- A number that resolves goes on resolving to the same name and action. -/
theorem Resolves.after {t : Tables α} {op : Int64} {name : Bytes} {a : α}
    (h : t.Resolves op name a) (calls : List (Call α)) : (t.after calls).Resolves op name a := by
  rw [resolves_iff_toInt] at h ⊢
  obtain ⟨id, hop, hid⟩ := h
  have hlength : id < t.entries.toList.length := (Array.getElem?_eq_some_iff.mp hid).1
  refine ⟨id, hop, ?_⟩
  rw [← Array.getElem?_toList, entries_after, List.getElem?_append_left hlength,
    Array.getElem?_toList, hid]

/-- The number of a registration resolves to it, whatever calls follow. -/
theorem resolves_push (t : Tables α) (name : Bytes) (a : α) {op : Int64} (hop : op.toInt = t.size)
    (calls : List (Call α)) : ((t.push name a).after calls).Resolves op name a := by
  apply Resolves.after
  rw [resolves_iff_toInt]
  refine ⟨t.size, hop, ?_⟩
  rw [getElem?_push, if_pos rfl]

/-- Single calls hand out the next numbers, one for each registration. -/
theorem numbers_eq_range' (t : Tables α) {calls : List (Call α)}
    (h : ∀ c ∈ calls, c.parts = [c]) :
    numbers t calls = List.range' t.size (calls.flatMap Call.registrations).length := by
  induction calls generalizing t with
  | nil => rfl
  | cons c calls ih =>
    rw [List.forall_mem_cons] at h
    have hsize : (t.apply c).size = t.size + c.registrations.length := by
      rw [size, ← Array.length_toList, entries_apply, List.length_append]
      rfl
    rw [numbers, ih (t.apply c) h.2, List.flatMap_cons, List.length_append, hsize,
      ← List.range'_append_1]
    congr 1
    -- what is left is that this one call hands out a number exactly if it registers
    cases c with
    | register name action =>
      rcases t.apply_register_cases name action with ⟨a, -, hlog, hnumber⟩ | ⟨-, hlog, hnumber⟩
      · rw [hlog, hnumber]
        rfl
      · rw [hlog, hnumber]
        rfl
    | describe name doc => rfl
    | registerStandard embed => simp [Call.parts, Standard.all] at h

/-- The parts of calls hand out the next numbers, one for each registration that the calls make. -/
theorem numbers_flatMap_parts (t : Tables α) (calls : List (Call α)) :
    numbers t (calls.flatMap Call.parts) =
      List.range' t.size (calls.flatMap Call.registrations).length := by
  have hsingle : ∀ c ∈ calls.flatMap Call.parts, c.parts = [c] := by
    intro c hc
    obtain ⟨d, -, hd⟩ := List.mem_flatMap.mp hc
    exact parts_of_mem_parts hd
  have hparts : (calls.flatMap Call.parts).flatMap Call.registrations =
      calls.flatMap Call.registrations := by
    rw [List.flatMap_assoc]
    exact congrArg (calls.flatMap ·) (funext flatMap_registrations_parts)
  rw [numbers_eq_range' t hsingle, hparts]

/-- Writes one description after the other. -/
def writeAll (docs : Table Bytes) (rows : List (Bytes × Bytes)) : Table Bytes :=
  rows.foldl (fun docs row => docs.write row.1 row.2) docs

/-- What was written last under a name is read, and what was there before if nothing was. -/
theorem read?_writeAll (docs : Table Bytes) (rows : List (Bytes × Bytes)) (name : Bytes) :
    (writeAll docs rows).read? name = (rows.reverse.lookup name).or (docs.read? name) := by
  induction rows generalizing docs with
  | nil => rfl
  | cons row rows ih =>
    have hrow : (docs.write row.1 row.2).read? name =
        (List.lookup name [row]).or (docs.read? name) := by
      rw [Table.read?_write]
      by_cases hname : name = row.1
      · rw [if_pos hname, List.lookup_cons, beq_iff_eq.mpr hname]
        rfl
      · rw [if_neg hname, List.lookup_cons, beq_eq_false_iff_ne.mpr hname]
        rfl
    rw [List.reverse_cons, List.lookup_append, Option.or_assoc, ← hrow, ← ih]
    rfl

theorem docs_registered (t : Tables α) (name : Bytes) (action : Option α) :
    (t.registered name action).docs = t.docs := by
  rcases t.apply_register_cases name action with ⟨a, ht, -⟩ | ⟨ht, -⟩ <;> rw [ht]
  rfl

/-- A call writes its descriptions and leaves the others as they are. -/
theorem docs_apply (t : Tables α) (c : Call α) :
    (t.apply c).docs = writeAll t.docs c.descriptions := by
  cases c with
  | register name action => exact t.docs_registered name action
  | describe name doc => rfl
  | registerStandard embed =>
    rw [apply, Call.descriptions]
    generalize Standard.all = is
    induction is generalizing t with
    | nil => rfl
    | cons i is ih =>
      rw [List.foldl_cons, ih, describe, docs_registered]
      rfl

/-- The descriptions after calls are those before them, overwritten by those that they give. -/
theorem docs_after (t : Tables α) (calls : List (Call α)) :
    (t.after calls).docs = writeAll t.docs (calls.flatMap Call.descriptions) := by
  induction calls generalizing t with
  | nil => rfl
  | cons c calls ih =>
    have hrest := ih (t.apply c)
    rw [docs_apply, writeAll, writeAll, ← List.foldl_append, ← List.flatMap_cons] at hrest
    exact hrest

end Tables

/-! ### Registries -/

namespace Registry

/-- The tables of a registry after a call are what the call makes of its tables. -/
theorem toTables_apply (r : Registry α) (c : Call α) :
    (c.apply r).toTables = r.toTables.apply c := by
  cases c with
  | register name action =>
    rw [Call.apply, Tables.apply, Tables.registered, register, Tables.register]
    cases Tables.checked name action <;> rfl
  | describe name doc => rfl
  | registerStandard embed =>
    rw [Call.apply, Tables.apply, addStandard]
    generalize Standard.all = is
    induction is generalizing r with
    | nil => rfl
    | cons i is ih =>
      rw [List.foldl_cons, List.foldl_cons, ih, r.registered_of_ne_nil i.name_ne_nil]
      rfl

/-- The tables of a registry after calls are what the calls make of its tables. -/
theorem toTables_after (r : Registry α) (calls : List (Call α)) :
    (r.after calls).toTables = r.toTables.after calls := by
  induction calls generalizing r with
  | nil => rfl
  | cons c calls ih =>
    have hrest := ih (c.apply r)
    rw [toTables_apply] at hrest
    exact hrest

end Registry

/-! ## Names in the order of their numbers -/

namespace Tables

open Registry (Call)

variable {t : Tables α}

/-- The first name stands for a smaller number than the second. -/
def Before (t : Tables α) (a b : Bytes) : Prop :=
  ∃ i j, t.lookup? a = some i ∧ t.lookup? b = some j ∧ i < j

/-- The second list has the names of the first, sorted by the numbers that are found under them:
none comes after one that it should come before. -/
def Sorts (t : Tables α) (keys sorted : List Bytes) : Prop :=
  sorted.Perm keys ∧ sorted.Pairwise fun a b => ¬ t.rank b < t.rank a

theorem rank_eq {name : Bytes} {id : Nat} (h : t.lookup? name = some id) : t.rank name = id := by
  rw [rank, h]
  rfl

/-- The keys of the table of names are the names that stand for a number. -/
theorem mem_keys_iff {name : Bytes} :
    name ∈ t.byName.keys ↔ ∃ id, t.lookup? name = some id := by
  rw [← Option.isSome_iff_exists, lookup?, Table.read?, List.lookup_isSome_iff, Table.keys,
    List.mem_map]
  simp only [beq_iff_eq, eq_comm (a := name)]

namespace InStep

/-- No two names stand for the same number. -/
theorem eq_of_lookup? (h : t.InStep) {a b : Bytes} {id : Nat} (ha : t.lookup? a = some id)
    (hb : t.lookup? b = some id) : a = b := by
  have hname := ((h.latest a id).mp ha).1
  rw [((h.latest b id).mp hb).1] at hname
  exact (Option.some.inj hname).symm

/-- The keys in any order, sorted in any way by the numbers found under them, are one list. -/
theorem eq_of_sorts (h : t.InStep) {keys keys' sorted sorted' : List Bytes}
    (hkeys : keys.Perm t.byName.keys) (hsorts : t.Sorts keys sorted)
    (hkeys' : keys'.Perm t.byName.keys) (hsorts' : t.Sorts keys' sorted') : sorted = sorted' := by
  have hsame := (hsorts.1.trans hkeys).trans (hsorts'.1.trans hkeys').symm
  refine List.Perm.eq_of_pairwise ?_ hsorts.2 hsorts'.2 hsame
  -- names that neither comes before the other stand for one number, and so are one name
  intro a b ha hb hba hab
  obtain ⟨i, hi⟩ := mem_keys_iff.mp ((hsorts.1.trans hkeys).mem_iff.mp ha)
  obtain ⟨j, hj⟩ := mem_keys_iff.mp ((hsorts'.1.trans hkeys').mem_iff.mp hb)
  rw [rank_eq hi, rank_eq hj] at hba hab
  obtain rfl : i = j := by omega
  exact h.eq_of_lookup? hi hj

end InStep

/-- The names are the keys of the table of names, sorted by the numbers found there. -/
theorem sorts_names (t : Tables α) : t.Sorts t.byName.keys t.names := by
  refine ⟨List.mergeSort_perm _ _, ?_⟩
  have hsorted : t.names.Pairwise fun a b => decide (t.rank a ≤ t.rank b) = true := by
    apply List.pairwise_mergeSort
    · simp only [decide_eq_true_eq]
      omega
    · simp only [Bool.or_eq_true, decide_eq_true_eq]
      omega
  refine hsorted.imp fun hle => ?_
  exact Nat.not_lt.mpr (of_decide_eq_true hle)

theorem mem_names_iff {name : Bytes} : name ∈ t.names ↔ ∃ id, t.lookup? name = some id := by
  rw [t.sorts_names.1.mem_iff, mem_keys_iff]

namespace InStep

/-- However the names are taken up and sorted, they are listed alike. -/
theorem eq_names_of_sorts (h : t.InStep) {keys sorted : List Bytes}
    (hkeys : keys.Perm t.byName.keys) (hsorts : t.Sorts keys sorted) : sorted = t.names :=
  h.eq_of_sorts hkeys hsorts (.refl _) t.sorts_names

theorem nodup_names (h : t.InStep) : t.names.Nodup := t.sorts_names.1.nodup_iff.mpr h.once

/-- The names are listed in the order of the numbers they stand for. -/
theorem pairwise_names (h : t.InStep) : t.names.Pairwise t.Before := by
  refine (t.sorts_names.2.and h.nodup_names).imp_of_mem ?_
  rintro a b ha hb ⟨hba, hne⟩
  obtain ⟨i, hi⟩ := mem_names_iff.mp ha
  obtain ⟨j, hj⟩ := mem_names_iff.mp hb
  rw [rank_eq hi, rank_eq hj] at hba
  have hij : i ≠ j := by
    rintro rfl
    exact hne (h.eq_of_lookup? hi hj)
  exact ⟨i, j, hi, hj, by omega⟩

end InStep

/-! ## Tables and registrations -/

/-- The tables are what registrations and descriptions in this order make them. -/
structure Reflects (t : Tables α) (log : List (Entry α)) (descriptions : List (Bytes × Bytes)) :
    Prop where
  /-- As many numbers were handed out as registrations were made. -/
  size : t.size = log.length
  /-- A word resolves to the registration that it counts, from zero on. -/
  resolves : ∀ op name a,
    t.Resolves op name a ↔ ∃ id : Nat, op.toInt = id ∧ log[id]? = some ⟨name, a⟩
  /-- Only words that count a registration resolve. -/
  unresolved : ∀ op,
    t.name? op = none ∧ t.action? op = none ↔ ¬ (0 ≤ op.toInt ∧ op.toInt < log.length)
  /-- Names that were registered stand for a number, and no others. -/
  bound : ∀ name, (∃ id, t.lookup? name = some id) ↔ ∃ e ∈ log, e.name = name
  /-- A name stands for the last registration that has it. -/
  latest : ∀ name id,
    t.lookup? name = some id ↔ IsGreatest {j | log[j]?.map (·.name) = some name} id
  /-- The empty name stands for nothing. -/
  nameless : t.lookup? [] = none
  /-- Each name that stands for a number is listed. -/
  listed : ∀ name, name ∈ t.names ↔ ∃ id, t.lookup? name = some id
  /-- Each of them once. -/
  once : t.names.Nodup
  /-- The list is in the order of the numbers. -/
  ordered : t.names.Pairwise t.Before
  /-- So it is what sorting comes to, whichever order the keys are taken up in. -/
  sorted : ∀ keys sorted, keys.Perm t.byName.keys → t.Sorts keys sorted → sorted = t.names
  /-- A name has the description that it was given last. -/
  described : ∀ name, t.doc name = (descriptions.reverse.lookup name).getD []

/-- The latest entry with a name has the largest number among them. -/
theorem binds_iff_isGreatest {name : Bytes} {id : Nat} :
    t.Binds name id ↔ IsGreatest {j | t.entries[j]?.map (·.name) = some name} id := by
  rw [Binds]
  constructor
  · rintro ⟨hname, hlater⟩
    exact ⟨hname, fun j hj => Nat.le_of_not_lt fun hlt => hlater j hlt hj⟩
  · rintro ⟨hname, hgreatest⟩
    exact ⟨hname, fun j hlt hj => absurd (hgreatest hj) (Nat.not_le_of_lt hlt)⟩

/-- A name that some entry bears has a latest entry. -/
theorem exists_binds_iff {name : Bytes} :
    (∃ id, t.Binds name id) ↔ ∃ e ∈ t.entries, e.name = name := by
  constructor
  · rintro ⟨id, hid⟩
    obtain ⟨a, ha⟩ := hid.entry
    exact ⟨_, Array.mem_of_getElem? ha, rfl⟩
  · rintro ⟨e, he, rfl⟩
    obtain ⟨i, hi⟩ := Array.getElem?_of_mem he
    have hbears : t.entries[i]?.map (·.name) = some e.name := by rw [hi, Option.map_some]
    -- no entry stands beyond the size, so the largest number with the name is looked for below it
    refine ⟨Nat.findGreatest (fun j => t.entries[j]?.map (·.name) = some e.name) t.size,
      binds_iff_isGreatest.mpr ⟨?_, ?_⟩⟩
    · exact Nat.findGreatest_spec (P := fun j => t.entries[j]?.map (·.name) = some e.name)
        (Nat.le_of_lt (Array.getElem?_eq_some_iff.mp hi).1) hbears
    · intro j hj
      obtain ⟨e', he', -⟩ := Option.map_eq_some_iff.mp hj
      exact Nat.le_findGreatest (Nat.le_of_lt (Array.getElem?_eq_some_iff.mp he').1) hj

/-- Tables in step are what their entries, taken as registrations, make them. -/
theorem InStep.reflects (h : t.InStep) (hnames : ∀ e ∈ t.entries, e.name ≠ [])
    {descriptions : List (Bytes × Bytes)} (hdocs : t.docs = writeAll [] descriptions) :
    t.Reflects t.entries.toList descriptions where
  size := Array.length_toList.symm
  resolves op name a := by
    simp only [Array.getElem?_toList]
    exact resolves_iff_toInt
  unresolved op := by
    rw [Array.length_toList, name?, action?, Option.map_eq_none_iff, Option.map_eq_none_iff,
      and_self, ← Option.not_isSome_iff_eq_none, entry?_isSome_iff]
    rfl
  bound name := by
    simp only [Array.mem_toList_iff, h.latest]
    exact exists_binds_iff
  latest name id := by
    simp only [Array.getElem?_toList]
    rw [h.latest, binds_iff_isGreatest]
  nameless := by
    rw [Option.eq_none_iff_forall_ne_some]
    intro id hid
    obtain ⟨a, ha⟩ := ((h.latest [] id).mp hid).entry
    exact hnames _ (Array.mem_of_getElem? ha) rfl
  listed _ := mem_names_iff
  once := h.nodup_names
  ordered := h.pairwise_names
  sorted _ _ := h.eq_names_of_sorts
  described name := by
    rw [doc, hdocs, read?_writeAll, Table.read?, List.lookup_nil, Option.or_none]

/-- **The tables are what the calls made them.** Whatever calls were made from empty tables on, the
tables are in step, and they are those of a registry to which the same calls were made. The numbers
that the parts of the calls handed out are `0, 1, 2, …` up to the size. The tables are what the
registrations and descriptions among the calls make them, in their order; and what resolves goes on
resolving to the same, whatever calls follow. The next registration is refused, and then changes
nothing, if it lacks a name or an action; otherwise it is given the size as its number, which from
then on resolves to it. -/
theorem reflects_after (calls : List (Call α)) :
    let t := Tables.empty.after calls
    (t.InStep ∧ (Registry.empty.after calls).toTables = t) ∧
    (Tables.empty.after (calls.flatMap Call.parts) = t ∧
      numbers .empty (calls.flatMap Call.parts) = List.range t.size) ∧
    t.Reflects (calls.flatMap Call.registrations) (calls.flatMap Call.descriptions) ∧
    (∀ op name a more, t.Resolves op name a → (t.after more).Resolves op name a) ∧
    (∀ name action, name = [] ∨ action = none →
      (∃ e, t.register name action = .error e) ∧ t.apply (.register name action) = t) ∧
    ∀ name a, name ≠ [] → ∃ t', t.register name (some a) = .ok (t.size, t') ∧
      t.apply (.register name (some a)) = t' ∧
      ∀ (op : Int64) more, op.toInt = t.size → (t'.after more).Resolves op name a := by
  intro t
  have hinStep : t.InStep := InStep.empty.after calls
  have hentries : t.entries.toList = calls.flatMap Call.registrations :=
    entries_after .empty calls
  have hregistry : (Registry.empty.after calls).toTables = t :=
    Registry.toTables_after .empty calls
  have hreflects :
      t.Reflects (calls.flatMap Call.registrations) (calls.flatMap Call.descriptions) := by
    have hreachable : (Registry.empty.after calls : Registry α).Reachable :=
      Registry.Reachable.empty.after calls
    have hnames := hreachable.name_ne_nil
    rw [hregistry] at hnames
    rw [← hentries]
    exact hinStep.reflects hnames (docs_after .empty calls)
  refine ⟨⟨hinStep, hregistry⟩, ⟨after_flatMap_parts _ _, ?_⟩, hreflects, ?_, ?_, ?_⟩
  · rw [numbers_flatMap_parts, hreflects.size, List.range_eq_range']
    rfl
  · intro op name a more h
    exact h.after more
  · intro name action hlacking
    exact t.register_of_lacking hlacking
  · intro name a hname
    refine ⟨t.push name a, ?_, t.registered_of_ne_nil hname a, ?_⟩
    · rw [register, checked, if_neg hname]
      rfl
    · intro op more hop
      exact t.resolves_push name a hop more

end Tables

/-- Addition is registered a second time, as division, between calls that are refused and a
description. -/
def Registry.secondAddition : List (Registry.Call Standard) :=
  [.registerStandard id, .register [] (some .pop), .registerFunc id (utf8 "ADD") .div,
    .register (utf8 "SUB") none, .describe (utf8 "MUL") []]

namespace Tables

/-- The second addition has the next number, and the name goes over to it; so it is listed last,
also when the keys are taken up backwards. The first keeps its number. -/
theorem reflects_after_secondAddition :
    let t := Tables.empty.after Registry.secondAddition
    let names := ["PRINT", "LOAD_CONST", "EXIT", "POP", "DIV", "EQ", "NEQ", "DUP", "JMP", "JMPZ",
      "WRITE", "WRITE_CHAR", "ADD"].map utf8
    numbers .empty (Registry.secondAddition.flatMap Registry.Call.parts) = List.range 14 ∧
    t.lookup? (utf8 "ADD") = some 13 ∧ t.lookup? (utf8 "SUB") = none ∧
    t.lookup? (utf8 "MUL") = none ∧
    t.Resolves 4 (utf8 "ADD") .add ∧ t.Resolves 13 (utf8 "ADD") .div ∧
    t.names = names ∧ (∀ sorted, t.Sorts t.byName.keys.reverse sorted → sorted = names) ∧
    t.doc (utf8 "ADD") = utf8 "pop a, pop b, push a+b" := by
  intro t names
  obtain ⟨-, ⟨-, hnumbers⟩, hreflects, -⟩ := reflects_after Registry.secondAddition
  have hnames : names = t.names := by
    have hperm : names.Perm t.byName.keys := List.isPerm_iff.mp (by decide)
    refine hreflects.sorted names names hperm ⟨.refl _, ?_⟩
    decide
  refine ⟨hnumbers, by decide, by decide, by decide, ?_, ?_, hnames.symm, ?_, ?_⟩
  · exact (hreflects.resolves 4 _ _).mpr ⟨4, by decide, rfl⟩
  · exact (hreflects.resolves 13 _ _).mpr ⟨13, by decide, rfl⟩
  · intro sorted hsorts
    rw [hnames]
    exact hreflects.sorted _ sorted (List.reverse_perm _) hsorts
  · rw [hreflects.described]
    decide

end Tables

end StackMachine
