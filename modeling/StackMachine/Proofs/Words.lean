import Mathlib.Algebra.Group.Int.Defs
import Mathlib.Algebra.Group.Nat.Defs
import StackMachine.Engine
import StackMachine.Proofs.Numerals

/-!
# Words as numbers, as addresses and as text

Program counters, operation numbers and step counts are 64-bit words. Whether one of them lies in a
table, and what adding one does to it, is said here about the integer it stands for, which is where
the arithmetic of the other modules takes place. The last section is about the decimal text of a
word: digits and perhaps a minus sign, so never a blank and never a line feed.
-/

namespace StackMachine

open Text

/-! ## Adding one -/

/-- Away from the largest word, adding one does not wrap. -/
theorem toInt_add_one {x : Int64} (h : x.toInt + 1 < 2 ^ 63) : (x + 1).toInt = x.toInt + 1 := by
  have hlow := x.le_toInt
  rw [Int64.toInt_add, Int64.toInt_one, Int.bmod_eq_of_le]
  · omega
  · omega

theorem add_one_sub_one (x : Int64) : x + 1 - 1 = x := by
  rw [Int64.sub_eq_add_neg, Int64.add_assoc, Int64.add_right_neg, Int64.add_zero]

/-! ## Looking a word up in a table -/

/-- A word that is not negative is the index of an entry. -/
theorem toNatClampNeg_of_nonneg {x : Int64} (h : 0 ≤ x.toInt) :
    (x.toNatClampNeg : Int) = x.toInt := by
  rw [← Int64.toNat_toInt]
  exact Int.toNat_of_nonneg h

/-- A table has an entry for exactly the words from zero up to its size. -/
theorem lookup_isSome_iff {α : Type} (table : Array α) (x : Int64) :
    (if x < 0 then none else table[x.toNatClampNeg]?).isSome ↔
      0 ≤ x.toInt ∧ x.toInt < table.size := by
  by_cases hneg : x < 0
  · rw [if_pos hneg]
    rw [Int64.lt_iff_toInt_lt, Int64.toInt_zero] at hneg
    simp only [Option.isSome_none, Bool.false_eq_true, false_iff]
    omega
  · rw [if_neg hneg]
    rw [Int64.lt_iff_toInt_lt, Int64.toInt_zero] at hneg
    have hcast := toNatClampNeg_of_nonneg (Int.not_lt.mp hneg)
    rw [Option.isSome_iff_ne_none, Ne, Array.getElem?_eq_none_iff, ← hcast]
    omega

theorem Code.fetch?_isSome_iff (code : Code) (pc : Int64) :
    (code.fetch? pc).isSome ↔ 0 ≤ pc.toInt ∧ pc.toInt < code.size :=
  lookup_isSome_iff code pc

theorem Tables.entry?_isSome_iff {α : Type} (t : Tables α) (id : Int64) :
    (t.entry? id).isSome ↔ 0 ≤ id.toInt ∧ id.toInt < t.size :=
  lookup_isSome_iff t.entries id

theorem Tables.action?_eq_none_iff {α : Type} {t : Tables α} {id : Int64} :
    t.action? id = none ↔ ¬ (0 ≤ id.toInt ∧ id.toInt < t.size) := by
  rw [← Tables.entry?_isSome_iff, Tables.action?, Option.map_eq_none_iff,
    Option.not_isSome_iff_eq_none]

/-! ## Multiples of the poll interval -/

theorem dvd_of_mod_pollInterval {x : Int64} (h : x % pollInterval = 0) :
    (1024 : Int) ∣ x.toInt := by
  have hmod : (x % pollInterval).toInt = x.toInt.tmod 1024 := BitVec.toInt_srem _ _
  rw [h, Int64.toInt_zero] at hmod
  exact Int.dvd_of_tmod_eq_zero hmod.symm

theorem mod_pollInterval_of_dvd {x : Int64} (h : (1024 : Int) ∣ x.toInt) :
    x % pollInterval = 0 := by
  have hmod : (x % pollInterval).toInt = x.toInt.tmod 1024 := BitVec.toInt_srem _ _
  rw [Int.tmod_eq_zero_of_dvd h, ← Int64.toInt_zero] at hmod
  exact Int64.toInt_inj.mp hmod

/-- Adding one moves on by one among the multiples, also where it wraps: they divide the number of
words. -/
theorem dvd_toInt_add_one (x : Int64) : (1024 : Int) ∣ (x + 1).toInt - (x.toInt + 1) := by
  have hwrap : ((2 ^ 64 : Nat) : Int) ∣ (x.toInt + 1).bmod (2 ^ 64) - (x.toInt + 1) :=
    Int.dvd_bmod_sub_self
  rw [Int64.toInt_add, Int64.toInt_one]
  omega

/-! ## The decimal text of a word -/

/-- A byte below the digits that is not the minus sign does not occur in the text of a word. -/
theorem not_mem_word {b : UInt8} (hb : b < 48) (hminus : b ≠ 45) (v : Int64) : b ∉ word v := by
  have hdecimal : b ∉ decimal v.toInt.natAbs := fun h =>
    absurd (Numeral.digits_decimal _ b h).1 (UInt8.not_le.mpr hb)
  rw [word, signed]
  split
  · rw [List.mem_cons, not_or]
    exact ⟨hminus, hdecimal⟩
  · exact hdecimal

end StackMachine
