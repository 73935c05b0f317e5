import StackMachine.Proofs.Registrations
import StackMachine.Proofs.Words

/-!
# What names mean, and for how long

A name means the action of the entry it stands for (`Registry.Means`). Code holds numbers in place
of names, and the number that a name stands for resolves to the name and to what it means
(`resolves_of_binds`).

Both change with time, but not in the same way. A later call (`Registry.Call`) may give a name a new
meaning; a number keeps the one it has (`resolves_after`), because calls only ever put entries
behind those that are there.

A number is a word. A registry with more than `2 ^ 63` entries would have some that no number
reaches, so the lemmas that go from names to numbers ask for a registry that is not larger.
-/

namespace StackMachine

open Text

namespace Tables

variable {α : Type} {t : Tables α}

/-- What a name stands for is an entry with that name. -/
theorem Binds.entry {name : Bytes} {id : Nat} (h : t.Binds name id) :
    ∃ a, t.entries[id]? = some ⟨name, a⟩ := by
  obtain ⟨e, he, rfl⟩ := Option.map_eq_some_iff.mp h.1
  exact ⟨e.action, he⟩

theorem Binds.lt_size {name : Bytes} {id : Nat} (h : t.Binds name id) : id < t.size := by
  obtain ⟨a, ha⟩ := h.entry
  exact (Array.getElem?_eq_some_iff.mp ha).1

/-- The operation number resolves to the name and the action. -/
def Resolves (t : Tables α) (op : Int64) (name : Bytes) (a : α) : Prop :=
  t.name? op = some name ∧ t.action? op = some a

theorem resolves_iff {op : Int64} {name : Bytes} {a : α} :
    t.Resolves op name a ↔ t.entry? op = some ⟨name, a⟩ := by
  rw [Resolves, name?, action?]
  cases t.entry? op with
  | none => simp
  | some e =>
    obtain ⟨name', a'⟩ := e
    simp

theorem entry?_ofNat (t : Tables α) {id : Nat} (h : id < 2 ^ 63) :
    t.entry? (Int64.ofNat id) = t.entries[id]? := by
  have hpos : ¬ Int64.ofNat id < 0 := by
    rw [Int64.lt_iff_toInt_lt, Int64.toInt_ofNat_of_lt h, Int64.toInt_zero]
    omega
  unfold entry?
  rw [if_neg hpos, Int64.toNatClampNeg_ofNat_of_lt h]

/-- A word resolves to the entry that it counts. -/
theorem resolves_iff_toInt {op : Int64} {name : Bytes} {a : α} :
    t.Resolves op name a ↔ ∃ id : Nat, op.toInt = id ∧ t.entries[id]? = some ⟨name, a⟩ := by
  rw [resolves_iff, entry?]
  by_cases hneg : op < 0
  · rw [if_pos hneg]
    rw [Int64.lt_iff_toInt_lt, Int64.toInt_zero] at hneg
    refine iff_of_false (Option.some_ne_none _).symm ?_
    rintro ⟨id, hid, -⟩
    omega
  · rw [if_neg hneg]
    rw [Int64.lt_iff_toInt_lt, Int64.toInt_zero] at hneg
    have hcast := (toNatClampNeg_of_nonneg (Int.not_lt.mp hneg)).symm
    constructor
    · intro h
      exact ⟨_, hcast, h⟩
    · rintro ⟨id, hid, h⟩
      rw [hcast, Int.natCast_inj] at hid
      rw [hid, h]

end Tables

namespace Registry

variable {α : Type}

/-! ## Names -/

/-- The name stands for an entry with this action. -/
def Means (r : Registry α) (name : Bytes) (a : α) : Prop :=
  ∃ id, r.Binds name id ∧ r.entries[id]? = some ⟨name, a⟩

/-- What a name means. -/
def meaning? (r : Registry α) (name : Bytes) : Option α :=
  (r.lookup? name).bind fun id => r.entries[id]?.map (·.action)

theorem meaning?_eq_some_iff {r : Registry α} {name : Bytes} {a : α} :
    r.meaning? name = some a ↔ r.Means name a := by
  rw [meaning?, Option.bind_eq_some_iff]
  constructor
  · rintro ⟨id, hid, ha⟩
    have hbinds := lookup?_eq_some_iff.mp hid
    obtain ⟨b, hb⟩ := hbinds.entry
    rw [hb] at ha
    obtain rfl : b = a := Option.some.inj ha
    exact ⟨id, hbinds, hb⟩
  · rintro ⟨id, hbinds, ha⟩
    refine ⟨id, lookup?_eq_some_iff.mpr hbinds, ?_⟩
    rw [ha]
    rfl

/-- Only names of entries mean something. -/
theorem Means.exists_mem {r : Registry α} {name : Bytes} {a : α} (h : r.Means name a) :
    ∃ e ∈ r.entries, e.name = name := by
  obtain ⟨id, -, he⟩ := h
  exact ⟨_, Array.mem_of_getElem? he, rfl⟩

/-- Two registries know the same names, and each name means the same in both. -/
def Agrees (r r' : Registry α) : Prop := ∀ name a, r.Means name a ↔ r'.Means name a

theorem Agrees.meaning? {r r' : Registry α} (h : r.Agrees r') (name : Bytes) :
    r.meaning? name = r'.meaning? name := by
  apply Option.ext
  intro a
  rw [meaning?_eq_some_iff, meaning?_eq_some_iff]
  exact h name a

/-- To agree, two registries have to agree about the names of their entries only. -/
theorem agrees_iff {r r' : Registry α} :
    r.Agrees r' ↔ ∀ e ∈ r.entries ++ r'.entries, r.meaning? e.name = r'.meaning? e.name := by
  constructor
  · intro h e _
    exact h.meaning? e.name
  · intro h name a
    rw [← meaning?_eq_some_iff, ← meaning?_eq_some_iff]
    by_cases hname : ∃ e ∈ r.entries ++ r'.entries, e.name = name
    · obtain ⟨e, he, rfl⟩ := hname
      rw [h e he]
    · -- a name that no entry bears means nothing in either registry
      simp only [Array.mem_append, not_exists, not_and] at hname
      constructor
      · intro hmeans
        obtain ⟨e, he, hbears⟩ := (meaning?_eq_some_iff.mp hmeans).exists_mem
        exact absurd hbears (hname e (.inl he))
      · intro hmeans
        obtain ⟨e, he, hbears⟩ := (meaning?_eq_some_iff.mp hmeans).exists_mem
        exact absurd hbears (hname e (.inr he))

instance [DecidableEq α] (r r' : Registry α) : Decidable (r.Agrees r') :=
  decidable_of_iff _ agrees_iff.symm

/-! ## Numbers -/

/-- The number that a name stands for resolves to the name and to what it means. -/
theorem resolves_of_binds {r : Registry α} (hsize : r.size ≤ 2 ^ 63) {name : Bytes} {id : Nat}
    (h : r.Binds name id) : ∃ a, r.Means name a ∧ r.Resolves (Int64.ofNat id) name a := by
  obtain ⟨a, ha⟩ := h.entry
  have hid := h.lt_size
  refine ⟨a, ⟨id, h, ha⟩, ?_⟩
  rw [Tables.resolves_iff, r.entry?_ofNat (by omega), ha]

/-! ## Calls -/

/-- A call that may change a registry. -/
inductive Call (α : Type) where
  | register (name : Bytes) (action : Option α)
  | describe (name doc : Bytes)
  | registerStandard (embed : Standard → α)

/-- The registry after a call. One that is refused changes nothing. -/
def Call.apply (r : Registry α) : Call α → Registry α
  | .register name action =>
    match r.register name action with
    | .ok (_, r') => r'
    | .error _ => r
  | .describe name doc => r.describe name doc
  | .registerStandard embed => r.addStandard embed

/-- The registry after calls, made in this order. -/
def after (r : Registry α) (calls : List (Call α)) : Registry α := calls.foldl Call.apply r

theorem after_append (r : Registry α) (calls more : List (Call α)) :
    r.after (calls ++ more) = (r.after calls).after more :=
  List.foldl_append

/-- What every single registration and description hands on, a call hands on. -/
theorem Call.apply_induction {P : Registry α → Prop}
    (hregister : ∀ r name a, name ≠ [] → P r → P (r.push name a))
    (hdescribe : ∀ r name doc, P r → P (r.describe name doc)) {r : Registry α} (hr : P r)
    (c : Call α) :
    P (c.apply r) := by
  cases c with
  | register name action =>
    rw [Call.apply]
    split
    · next id r' hok =>
      obtain ⟨hname, a, -, -, rfl⟩ := register_eq_ok hok
      exact hregister r name a hname hr
    · exact hr
  | describe name doc => exact hdescribe r name doc hr
  | registerStandard embed =>
    rw [Call.apply, addStandard]
    generalize Standard.all = is
    induction is generalizing r with
    | nil => exact hr
    | cons i is ih =>
      apply ih
      apply hdescribe
      apply hregister _ _ _ _ hr
      cases i <;> decide

/-- What every single registration and description hands on, calls hand on. -/
theorem after_induction {P : Registry α → Prop}
    (hregister : ∀ r name a, name ≠ [] → P r → P (r.push name a))
    (hdescribe : ∀ r name doc, P r → P (r.describe name doc)) {r : Registry α} (hr : P r)
    (calls : List (Call α)) : P (r.after calls) := by
  induction calls generalizing r with
  | nil => exact hr
  | cons c calls ih => exact ih (c.apply_induction hregister hdescribe hr)

theorem Reachable.after {r : Registry α} (h : r.Reachable) (calls : List (Call α)) :
    (r.after calls).Reachable := by
  apply after_induction _ _ h
  · intro r name a hname hr
    exact .register hr (r.register_of_ne_nil hname a)
  · intro r name doc hr
    exact hr.describe name doc

/-- Calls leave the entries that are there where they are. -/
theorem getElem?_entries_after {r : Registry α} {id : Nat} {e : Entry α}
    (h : r.entries[id]? = some e) (calls : List (Call α)) :
    (r.after calls).entries[id]? = some e := by
  apply after_induction (P := fun r => r.entries[id]? = some e) _ _ h
  · intro r name a _ hr
    have hid : id ≠ r.size := Nat.ne_of_lt (Array.getElem?_eq_some_iff.mp hr).1
    have hpush := r.getElem?_push name a id
    rw [if_neg hid, hr] at hpush
    exact hpush
  · intro r name doc hr
    exact hr

/-- A number that resolves goes on resolving to the same name and action. -/
theorem resolves_after {r : Registry α} {op : Int64} {name : Bytes} {a : α}
    (h : r.Resolves op name a) (calls : List (Call α)) : (r.after calls).Resolves op name a := by
  rw [Tables.resolves_iff_toInt] at h ⊢
  obtain ⟨id, hop, hid⟩ := h
  exact ⟨id, hop, getElem?_entries_after hid calls⟩

end Registry

end StackMachine
