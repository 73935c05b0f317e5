import Mathlib.Data.Nat.Digits.Defs
import StackMachine.Text.Numeral

/-!
# The numerals of machine words

A numeral is a sign, which may be missing, and one or more decimal digits. `Numeral.Denotes` relates
it to the word that has its value; a numeral whose value is no word denotes nothing. Reading finds a
word exactly where there is one to find (`parse_eq_ok_iff`), although it works from the left and
gives up as soon as the magnitude leaves 64 bits: the magnitude only grows from there. The decimal
text of a word is one of the numerals that denote it (`denotes_word`).
-/

namespace StackMachine.Numeral

open Text

/-- Decimal digits and nothing else. -/
def Digits (ds : Bytes) : Prop := ∀ b ∈ ds, 48 ≤ b ∧ b ≤ 57

instance (ds : Bytes) : Decidable (Digits ds) := List.decidableBAll (fun b => 48 ≤ b ∧ b ≤ 57) ds

/-- The number that decimal digits stand for, the most significant first. -/
def value (ds : Bytes) : Nat := Nat.ofDigits 10 (ds.reverse.map fun b => b.toNat - 48)

/-- The text is a numeral whose value is the word. -/
def Denotes (t : Bytes) (v : Int64) : Prop :=
  ∃ ds, ds ≠ [] ∧ Digits ds ∧
    ((t = ds ∨ t = 43 :: ds) ∧ v.toInt = value ds ∨ t = 45 :: ds ∧ v.toInt = -value ds)

/-! ## Magnitudes -/

theorem digits_cons {b : UInt8} {ds : Bytes} :
    Digits (b :: ds) ↔ (48 ≤ b ∧ b ≤ 57) ∧ Digits ds := List.forall_mem_cons

theorem value_singleton (b : UInt8) : value [b] = b.toNat - 48 := Nat.ofDigits_singleton

theorem value_append (ds es : Bytes) : value (ds ++ es) = value ds * 10 ^ es.length + value es := by
  rw [value, List.reverse_append, List.map_append, Nat.ofDigits_append, List.length_map,
    List.length_reverse, Nat.add_comm, Nat.mul_comm]
  rfl

/-- A number is carried on by one digit at a time. -/
theorem carry_cons (n : Nat) (b : UInt8) (ds : Bytes) :
    n * 10 ^ (b :: ds).length + value (b :: ds) =
      (n * 10 + (b.toNat - 48)) * 10 ^ ds.length + value ds := by
  rw [← List.singleton_append, value_append, value_singleton, List.length_append,
    List.length_singleton, Nat.pow_add, Nat.pow_one, Nat.add_mul, Nat.mul_assoc, Nat.add_assoc]

theorem le_carry (n : Nat) (ds : Bytes) : n ≤ n * 10 ^ ds.length + value ds :=
  Nat.le_add_right_of_le (Nat.le_mul_of_pos_right n (Nat.pow_pos (by decide)))

theorem value_zeros (k : Nat) : value (List.replicate k 48) = 0 := by
  induction k with
  | zero => rfl
  | succ k ih =>
    rw [List.replicate_succ', value_append, ih, value_singleton]
    simp

theorem value_lt {ds : Bytes} (h : Digits ds) : value ds < 10 ^ ds.length := by
  have hdigits : ∀ x ∈ ds.reverse.map (fun b => b.toNat - 48), x < 10 := by
    intro x hx
    obtain ⟨b, hb, rfl⟩ := List.mem_map.mp hx
    have hle : b.toNat ≤ 57 := UInt8.le_iff_toNat_le.mp (h b (List.mem_reverse.mp hb)).2
    omega
  have hlt := Nat.ofDigits_lt_base_pow_length (by decide) hdigits
  rwa [List.length_map, List.length_reverse] at hlt

/-- Scanning takes digits, as long as they and the magnitude before them stay below `2 ^ 64`. -/
theorem scan_eq_ok_iff {n m : Nat} {ds : Bytes} (hn : n < 2 ^ 64) :
    scan n ds = .ok m ↔ Digits ds ∧ m = n * 10 ^ ds.length + value ds ∧ m < 2 ^ 64 := by
  induction ds generalizing n with
  | nil =>
    have hvalue : n * 10 ^ ([] : Bytes).length + value [] = n := by simp [value]
    rw [scan, Except.ok.injEq, hvalue]
    constructor
    · intro hm
      exact ⟨List.forall_mem_nil _, hm.symm, hm ▸ hn⟩
    · rintro ⟨-, rfl, -⟩
      rfl
  | cons b ds ih =>
    rw [scan]
    by_cases hb : 48 ≤ b ∧ b ≤ 57
    · rw [digit?, if_pos hb, carry_cons, digits_cons]
      dsimp only
      rw [Nat.pow_eq]
      by_cases hbig : 2 ^ 64 ≤ n * 10 + (b.toNat - 48)
      · rw [if_pos hbig]
        refine iff_of_false (by simp) ?_
        rintro ⟨-, rfl, hm⟩
        exact absurd (Nat.lt_of_le_of_lt (le_carry _ ds) hm) (Nat.not_lt.mpr hbig)
      · rw [if_neg hbig, ih (Nat.lt_of_not_le hbig)]
        simp only [hb, and_self, true_and]
    · rw [digit?, if_neg hb]
      refine iff_of_false (by simp) ?_
      rintro ⟨hds, -⟩
      exact hb (digits_cons.mp hds).1

theorem magnitude_eq_ok_iff {ds : Bytes} {n : Nat} :
    magnitude ds = .ok n ↔ ds ≠ [] ∧ Digits ds ∧ n = value ds ∧ n < 2 ^ 64 := by
  cases ds with
  | nil => simp [magnitude]
  | cons b ds =>
    rw [magnitude, scan_eq_ok_iff (by decide), Nat.zero_mul, Nat.zero_add]
    simp

/-! ## Signs -/

/-- What a text is, by the sign that is found. -/
theorem sign_cases (t : Bytes) :
    (t = (sign t).2 ∨ t = 43 :: (sign t).2) ∧ (sign t).1 = false ∨
      t = 45 :: (sign t).2 ∧ (sign t).1 = true := by
  fun_cases sign t with
  | case1 rest => exact .inl ⟨.inr rfl, rfl⟩
  | case2 rest => exact .inr ⟨rfl, rfl⟩
  | case3 => exact .inl ⟨.inl rfl, rfl⟩

theorem sign_of_head {t : Bytes} (h : ∀ b ∈ t.head?, 48 ≤ b) : sign t = (false, t) := by
  fun_cases sign t with
  | case1 rest => exact absurd (h 43 rfl) (by decide)
  | case2 rest => exact absurd (h 45 rfl) (by decide)
  | case3 => rfl

theorem sign_of_digits {ds : Bytes} (h : Digits ds) : sign ds = (false, ds) :=
  sign_of_head fun b hb => (h b (List.mem_of_mem_head? hb)).1

/-- A numeral denotes the value of what follows its sign. -/
theorem denotes_iff {t : Bytes} {v : Int64} :
    Denotes t v ↔ (sign t).2 ≠ [] ∧ Digits (sign t).2 ∧
      v.toInt = if (sign t).1 then -(value (sign t).2 : Int) else value (sign t).2 := by
  constructor
  · rintro ⟨ds, hne, hds, ⟨rfl | rfl, hv⟩ | ⟨rfl, hv⟩⟩
    · rw [sign_of_digits hds]
      exact ⟨hne, hds, hv⟩
    · exact ⟨hne, hds, hv⟩
    · exact ⟨hne, hds, hv⟩
  · rintro ⟨hne, hds, hv⟩
    refine ⟨(sign t).2, hne, hds, ?_⟩
    rcases sign_cases t with ⟨ht, hsign⟩ | ⟨ht, hsign⟩
    · rw [hsign] at hv
      exact .inl ⟨ht, hv⟩
    · rw [hsign] at hv
      exact .inr ⟨ht, hv⟩

/-! ## Reading -/

/-- A signed magnitude is accepted exactly if a word has that value. -/
theorem signed_eq_ok_iff {negative : Bool} {n : Nat} {v : Int64} :
    (if negative then
        if 2 ^ 63 < n then Except.error Reason.outOfRange else .ok (Int64.ofInt (-n))
      else
        if 2 ^ 63 ≤ n then .error .outOfRange else .ok (Int64.ofNat n)) = .ok v ↔
      v.toInt = if negative then -(n : Int) else n := by
  have hlow := v.le_toInt
  have hhigh := v.toInt_lt
  cases negative with
  | true =>
    rw [if_pos rfl, if_pos rfl]
    by_cases hbig : 2 ^ 63 < n
    · rw [if_pos hbig]
      exact iff_of_false (by simp) (by omega)
    · rw [if_neg hbig, Except.ok.injEq, ← Int64.toInt_inj,
        Int64.toInt_ofInt_of_le (by omega) (by omega), eq_comm]
  | false =>
    rw [if_neg Bool.false_ne_true, if_neg Bool.false_ne_true]
    by_cases hbig : 2 ^ 63 ≤ n
    · rw [if_pos hbig]
      exact iff_of_false (by simp) (by omega)
    · rw [if_neg hbig, Except.ok.injEq, ← Int64.toInt_inj,
        Int64.toInt_ofNat_of_lt (Nat.lt_of_not_le hbig), eq_comm]

/-- Reading finds a word exactly where the numeral denotes it. -/
theorem read_eq_ok_iff {t : Bytes} {v : Int64} : read t = .ok v ↔ Denotes t v := by
  rw [denotes_iff, read]
  obtain ⟨negative, ds⟩ := sign t
  dsimp only
  cases hm : magnitude ds with
  | error reason =>
    refine iff_of_false (by simp [bind, Except.bind]) ?_
    rintro ⟨hne, hds, hv⟩
    -- the magnitude of a word is below `2 ^ 64`, so the scan would have gone through
    have hsmall : value ds < 2 ^ 64 := by
      have hlow := v.le_toInt
      have hhigh := v.toInt_lt
      split at hv <;> omega
    rw [magnitude_eq_ok_iff.mpr ⟨hne, hds, rfl, hsmall⟩] at hm
    cases hm
  | ok n =>
    obtain ⟨hne, hds, rfl, -⟩ := magnitude_eq_ok_iff.mp hm
    simp only [hne, hds, ne_eq, not_false_eq_true, true_and]
    exact signed_eq_ok_iff

/-- A numeral is parsed to the word that it denotes. -/
theorem parse_eq_ok_iff {t : Bytes} {v : Int64} : parse t = .ok v ↔ Denotes t v := by
  rw [← read_eq_ok_iff, parse]
  cases read t with
  | error reason => simp [Except.mapError]
  | ok w => simp [Except.mapError]

theorem Denotes.ne_nil {t : Bytes} {v : Int64} (h : Denotes t v) : t ≠ [] := by
  obtain ⟨ds, hne, -, ⟨rfl | rfl, -⟩ | ⟨rfl, -⟩⟩ := h
  · exact hne
  · exact List.cons_ne_nil _ _
  · exact List.cons_ne_nil _ _

/-- A numeral has no byte below its signs and digits. -/
theorem Denotes.not_mem {t : Bytes} {v : Int64} (h : Denotes t v) {b : UInt8} (hb : b < 43) :
    b ∉ t := by
  obtain ⟨ds, -, hds, hsign⟩ := h
  have hdigits : b ∉ ds := by
    intro hmem
    have hlow := (hds b hmem).1
    rw [UInt8.le_iff_toNat_le] at hlow
    rw [UInt8.lt_iff_toNat_lt] at hb
    exact absurd (Nat.lt_of_le_of_lt hlow hb) (by decide)
  rcases hsign with ⟨rfl | rfl, -⟩ | ⟨rfl, -⟩
  · exact hdigits
  · exact List.not_mem_cons_of_ne_of_not_mem (UInt8.ne_of_lt hb) hdigits
  · exact List.not_mem_cons_of_ne_of_not_mem
      (UInt8.ne_of_lt (UInt8.lt_trans hb (by decide))) hdigits

/-! ## The decimal text of a number -/

theorem digit_bounds (n : Nat) : 48 ≤ digit n ∧ digit n ≤ 57 := by
  rw [digit, UInt8.le_iff_toNat_le, UInt8.le_iff_toNat_le, Nat.toUInt8, UInt8.toNat_ofNat']
  change 48 ≤ (48 + n % 10) % 256 ∧ (48 + n % 10) % 256 ≤ 57
  omega

theorem toNat_digit (n : Nat) : (digit n).toNat - 48 = n % 10 := by
  rw [digit, Nat.toUInt8, UInt8.toNat_ofNat']
  omega

theorem digits_decimal (n : Nat) : Digits (decimal n) := by
  induction n using decimal.induct with
  | case1 n hn =>
    rw [decimal, if_pos hn]
    exact List.forall_mem_singleton.mpr (digit_bounds n)
  | case2 n hn ih =>
    rw [decimal, if_neg hn]
    exact List.forall_mem_append.mpr ⟨ih, List.forall_mem_singleton.mpr (digit_bounds n)⟩

theorem decimal_ne_nil (n : Nat) : decimal n ≠ [] := by
  rw [decimal]
  split
  · exact List.cons_ne_nil _ _
  · exact List.append_ne_nil_of_right_ne_nil _ (List.cons_ne_nil _ _)

/-- The decimal text of a number has the number as its value. -/
theorem value_decimal (n : Nat) : value (decimal n) = n := by
  induction n using decimal.induct with
  | case1 n hn =>
    rw [decimal, if_pos hn, value_singleton, toNat_digit]
    exact Nat.mod_eq_of_lt hn
  | case2 n hn ih =>
    rw [decimal, if_neg hn, value_append, value_singleton, toNat_digit, ih]
    simp only [List.length_singleton, Nat.pow_one]
    omega

theorem length_decimal_le {k n : Nat} (hk : 0 < k) (h : n < 10 ^ k) : (decimal n).length ≤ k := by
  induction k generalizing n with
  | zero => exact absurd hk (Nat.lt_irrefl 0)
  | succ k ih =>
    rw [decimal]
    by_cases hn : n < 10
    · rw [if_pos hn, List.length_singleton]
      omega
    · have hpos : 0 < k := by
        refine Nat.pos_of_ne_zero fun hzero => hn ?_
        rwa [hzero] at h
      rw [Nat.pow_succ'] at h
      rw [if_neg hn, List.length_append, List.length_singleton]
      exact Nat.succ_le_succ (ih hpos (Nat.div_lt_of_lt_mul h))

/-! Zeros in front of the digits do not change the number. -/

theorem digits_padLeft (k n : Nat) : Digits (padLeft (ascii '0') k (decimal n)) := by
  refine List.forall_mem_append.mpr ⟨?_, digits_decimal n⟩
  intro b hb
  rw [List.eq_of_mem_replicate hb]
  decide

theorem value_padLeft (k n : Nat) : value (padLeft (ascii '0') k (decimal n)) = n := by
  rw [padLeft, value_append, value_decimal]
  have hzeros : value (List.replicate (k - (decimal n).length) (ascii '0')) = 0 := value_zeros _
  rw [hzeros, Nat.zero_mul, Nat.zero_add]

theorem length_padLeft {k n : Nat} (hk : 0 < k) (hn : n < 10 ^ k) :
    (padLeft (ascii '0') k (decimal n)).length = k := by
  have hle := length_decimal_le hk hn
  rw [padLeft, List.length_append, List.length_replicate]
  omega

/-- The decimal text of a word denotes the word. -/
theorem denotes_word (v : Int64) : Denotes (word v) v := by
  refine ⟨decimal v.toInt.natAbs, decimal_ne_nil _, digits_decimal _, ?_⟩
  rw [word, signed, value_decimal]
  by_cases hneg : v.toInt < 0
  · rw [if_pos hneg]
    exact .inr ⟨rfl, by omega⟩
  · rw [if_neg hneg]
    exact .inl ⟨.inl rfl, by omega⟩

end StackMachine.Numeral
