import Mathlib.Data.List.DropRight
import StackMachine.Proofs.Delimiters
import StackMachine.Proofs.ExactArithmetic
import StackMachine.Proofs.Numerals
import StackMachine.Time.Duration

/-!
# Durations that are read back

A duration is written in the largest unit that fits, or as hours, minutes and seconds, with a
fraction that has no zeros at its end; it is read by adding up whatever numbers with units there
are. `Spells` stands between the two: it relates a sequence of numbers with units to the nanoseconds
that it adds up to, where the places of a fraction divide the unit. Reading finds this sum
(`terms_of_spells`), and a magnitude is spelled by its own text (`spells_magnitude`), so every
duration is read back from its text (`parse_toBytes`).

A fraction is taken in floating-point arithmetic. Where its places divide the unit nothing is lost
by that: the digits, the unit and the nanoseconds are whole numbers below `2 ^ 53`
(`fractionNanos_eq`).
-/

namespace StackMachine.Duration

open Text Numeral

theorem limit_eq : limit = 2 ^ 63 := rfl

/-! ## Numbers -/

theorem isDigit_iff (b : UInt8) : isDigit b = true ↔ 48 ≤ b ∧ b ≤ 57 := by
  rw [isDigit, Bool.and_eq_true, decide_eq_true_iff, decide_eq_true_iff]

theorem isDigit_of_digits {ds : Bytes} (h : Digits ds) : ∀ b ∈ ds, isDigit b = true :=
  fun b hb => (isDigit_iff b).mpr (h b hb)

theorem isNumberByte_eq_false {b : UInt8} :
    isNumberByte b = false ↔ isDigit b = false ∧ b ≠ 46 := by
  rw [isNumberByte, Bool.or_eq_false_iff, beq_eq_false_iff_ne]
  rfl

theorem whole_eq {n : Nat} {ds : Bytes} (h : n * 10 ^ ds.length + value ds ≤ limit) :
    whole n ds = some (n * 10 ^ ds.length + value ds) := by
  induction ds generalizing n with
  | nil =>
    rw [whole]
    simp [value]
  | cons b ds ih =>
    rw [carry_cons] at h ⊢
    have hsmall : ¬ limit < n * 10 + (b.toNat - 48) :=
      Nat.not_lt.mpr (Nat.le_trans (le_carry _ ds) h)
    rw [whole, if_neg hsmall, ih h]

theorem whole_zero {ds : Bytes} (h : value ds ≤ limit) : whole 0 ds = some (value ds) := by
  have hvalue : 0 * 10 ^ ds.length + value ds = value ds := by omega
  rw [whole_eq (by rwa [hvalue]), hvalue]

theorem fraction_eq {n scale : Nat} {ds : Bytes} (h : n * 10 ^ ds.length + value ds ≤ limit) :
    fraction n scale ds = (n * 10 ^ ds.length + value ds, scale * 10 ^ ds.length) := by
  induction ds generalizing n scale with
  | nil =>
    rw [fraction]
    simp [value]
  | cons b ds ih =>
    rw [carry_cons] at h ⊢
    have hle : n * 10 + (b.toNat - 48) ≤ limit := Nat.le_trans (le_carry _ ds) h
    have hsmall : ¬ ((limit - 1) / 10 < n ∨ limit < n * 10 + (b.toNat - 48)) := by
      rw [limit_eq] at hle ⊢
      omega
    rw [fraction, if_neg hsmall, ih h, List.length_cons, Nat.pow_succ', Nat.mul_assoc]

theorem fraction_zero {ds : Bytes} (h : value ds ≤ limit) :
    fraction 0 1 ds = (value ds, 10 ^ ds.length) := by
  have hvalue : 0 * 10 ^ ds.length + value ds = value ds := by omega
  rw [fraction_eq (by rwa [hvalue]), hvalue, Nat.one_mul]

/-- Where the unit has as many parts as the fraction counts, no nanosecond is lost in floating-point
arithmetic. -/
theorem fractionNanos_eq {n scale q : Nat} (hn : n < scale) (hpos : 0 < q)
    (hlt : scale * q < 2 ^ 53) :
    fractionNanos n scale (scale * q) = n * q := by
  have hscale : scale < 2 ^ 53 := Nat.lt_of_le_of_lt (Nat.le_mul_of_pos_right scale hpos) hlt
  have hq : q < 2 ^ 53 := Nat.lt_of_le_of_lt (Nat.le_mul_of_pos_left q (Nat.zero_lt_of_lt hn)) hlt
  have hnq : n * q < 2 ^ 53 := Nat.lt_of_le_of_lt (Nat.mul_le_mul_right q hn.le) hlt
  have hunit : (Dyadic.ofNat (scale * q)).Equals (q * scale) :=
    Nat.mul_comm scale q ▸ Dyadic.equals_ofNat hlt
  have hpart := hunit.div (Dyadic.equals_ofNat hscale) (Nat.zero_lt_of_lt hn) hq
  exact ((Dyadic.equals_ofNat (hn.trans hscale)).mul hpart hnq).floor

/-! ## Units -/

/-- What reading relies on in a unit: none of its bytes can begin a number, and its nanoseconds are
not rounded. -/
structure Usable (u : Bytes) (nanos : Nat) : Prop where
  ne_nil : u ≠ []
  bytes : ∀ b ∈ u, isNumberByte b = false
  pos : 0 < nanos
  lt : nanos < 2 ^ 53

theorem usable_of_unitNanos? {u : Bytes} {nanos : Nat} (h : unitNanos? u = some nanos) :
    Usable u nanos := by
  rw [unitNanos?] at h
  obtain ⟨front, back, htable, -⟩ := List.lookup_eq_some_iff.mp h
  have hall : (front ++ (u, nanos) :: back).all (fun x =>
      x.1 != [] && x.1.all (fun b => !isNumberByte b) && decide (0 < x.2) &&
        decide (x.2 < 2 ^ 53)) = true := by
    rw [← htable]
    decide
  have hunit := List.all_eq_true.mp hall (u, nanos) (by simp)
  simp only [Bool.and_eq_true, bne_iff_ne, List.all_eq_true, Bool.not_eq_true',
    decide_eq_true_iff] at hunit
  exact ⟨hunit.1.1.1, hunit.1.1.2, hunit.1.2, hunit.2⟩

theorem Usable.head {u : Bytes} {nanos : Nat} (h : Usable u nanos) (rest : Bytes) :
    ∀ b ∈ (u ++ rest).head?, isNumberByte b = false := by
  intro b hb
  rw [List.head?_append_of_ne_nil u h.ne_nil] at hb
  exact h.bytes b (List.mem_of_mem_head? hb)

theorem Usable.takeWhile_append {u rest : Bytes} {nanos : Nat} (h : Usable u nanos)
    (hrest : ∀ b ∈ rest.head?, isNumberByte b = true) :
    (u ++ rest).takeWhile (fun b => !isNumberByte b) = u := by
  refine (span_append (fun b hb => ?_) (fun b hb => ?_)).1
  · rw [h.bytes b hb]
    rfl
  · rw [hrest b hb]
    rfl

/-! ## Terms -/

/-- The point and the digits of a fraction, or nothing where there is none. -/
def point (ps : Bytes) : Bytes := if ps = [] then [] else 46 :: ps

theorem fractionNanos_of_dvd {u ps : Bytes} {nanos : Nat} (hps : Digits ps) (hu : Usable u nanos)
    (hdvd : 10 ^ ps.length ∣ nanos) :
    (if 0 < value ps then fractionNanos (value ps) (10 ^ ps.length) nanos else 0) =
      value ps * (nanos / 10 ^ ps.length) := by
  have hpos := hu.pos
  have hlt := hu.lt
  obtain ⟨q, rfl⟩ := hdvd
  rw [Nat.mul_div_cancel_left q (Nat.pow_pos (by decide))]
  by_cases hzero : 0 < value ps
  · rw [if_pos hzero, fractionNanos_eq (value_lt hps) (Nat.pos_of_mul_pos_left hpos) hlt]
  · rw [if_neg hzero, Nat.eq_zero_of_not_pos hzero, Nat.zero_mul]

/-- A number ends where its unit begins, and its whole part at the point. -/
theorem isDigit_head_eq_false {u : Bytes} {nanos : Nat} (hu : Usable u nanos) (ps rest : Bytes) :
    ∀ b ∈ (point ps ++ (u ++ rest)).head?, isDigit b = false := by
  intro b hb
  by_cases hnil : ps = []
  · rw [point, if_pos hnil, List.nil_append] at hb
    exact (isNumberByte_eq_false.mp (hu.head rest b hb)).1
  · rw [point, if_neg hnil, List.cons_append, List.head?_cons, Option.mem_some_iff] at hb
    rw [← hb]
    rfl

theorem term_eq {ds ps u rest : Bytes} {nanos : Nat} (hne : ds ≠ []) (hds : Digits ds)
    (hps : Digits ps) (hu : unitNanos? u = some nanos) (hdvd : 10 ^ ps.length ∣ nanos)
    (hrest : ∀ b ∈ rest.head?, isNumberByte b = true)
    (hle : value ds * nanos + value ps * (nanos / 10 ^ ps.length) ≤ limit) :
    term (ds ++ (point ps ++ (u ++ rest))) =
      .ok (value ds * nanos + value ps * (nanos / 10 ^ ps.length), rest) := by
  have hunit := usable_of_unitNanos? hu
  have hdigits := span_append (isDigit_of_digits hds) (isDigit_head_eq_false hunit ps rest)
  rw [term, hdigits.1, hdigits.2]
  split
  next places after hpoint =>
  -- without a point the unit begins where the digits end, and the fraction has no digits
  obtain ⟨rfl, rfl⟩ : places = ps ∧ after = u ++ rest := by
    by_cases hnil : ps = []
    · rw [point, if_pos hnil, List.nil_append] at hpoint
      split at hpoint
      · next rest' hrest' =>
        have hhead := hunit.head rest 46 (by rw [hrest']; rfl)
        exact absurd rfl (isNumberByte_eq_false.mp hhead).2
      · rw [hnil]
        exact ⟨(Prod.mk.inj hpoint).1.symm, (Prod.mk.inj hpoint).2.symm⟩
    · rw [point, if_neg hnil, List.cons_append] at hpoint
      have hplaces := span_append (isDigit_of_digits hps)
        (fun b hb => (isNumberByte_eq_false.mp (hunit.head rest b hb)).1)
      exact ⟨(Prod.mk.inj hpoint).1.symm.trans hplaces.1,
        (Prod.mk.inj hpoint).2.symm.trans hplaces.2⟩
  have hsmall : value ds * nanos ≤ limit := Nat.le_trans (Nat.le_add_right _ _) hle
  have hwhole := whole_zero (Nat.le_trans (Nat.le_mul_of_pos_right _ hunit.pos) hsmall)
  have hfraction : fraction 0 1 places = (value places, 10 ^ places.length) := by
    have hscale := Nat.le_of_dvd hunit.pos hdvd
    exact fraction_zero ((value_lt hps).le.trans (hscale.trans (hunit.lt.le.trans (by decide))))
  have hfits : ¬ limit / nanos < value ds :=
    Nat.not_lt.mpr ((Nat.le_div_iff_mul_le hunit.pos).mpr hsmall)
  rw [hwhole, hunit.takeWhile_append hrest]
  dsimp only
  rw [if_neg (fun h => hne h.1), if_neg hunit.ne_nil, hu]
  dsimp only
  rw [if_neg hfits, hfraction]
  dsimp only
  rw [fractionNanos_of_dvd hps hunit hdvd, if_neg (Nat.not_lt.mpr hle), List.drop_left]

/-! ## Reading -/

/-- The text is a sequence of numbers with units that add up to so many nanoseconds; the places of a
fraction divide its unit. -/
inductive Spells : Bytes → Nat → Prop
  | nil : Spells [] 0
  | cons {ds ps u rest : Bytes} {nanos n : Nat} (hne : ds ≠ []) (hds : Digits ds) (hps : Digits ps)
      (hu : unitNanos? u = some nanos) (hdvd : 10 ^ ps.length ∣ nanos) (hrest : Spells rest n) :
      Spells (ds ++ (point ps ++ (u ++ rest)))
        (value ds * nanos + value ps * (nanos / 10 ^ ps.length) + n)

theorem Spells.head {t : Bytes} {n : Nat} (h : Spells t n) : ∀ b ∈ t.head?, isDigit b = true := by
  cases h with
  | nil => simp
  | cons hne hds hps hu hdvd hrest =>
    intro b hb
    rw [List.head?_append_of_ne_nil _ hne] at hb
    exact isDigit_of_digits hds b (List.mem_of_mem_head? hb)

theorem Spells.ne_nil {t : Bytes} {n : Nat} (h : Spells t n) (hn : n ≠ 0) : t ≠ [] := by
  cases h with
  | nil => exact absurd rfl hn
  | cons hne hds hps hu hdvd hrest => exact List.append_ne_nil_of_left_ne_nil hne _

theorem Spells.length_ne_one {t : Bytes} {n : Nat} (h : Spells t n) : t.length ≠ 1 := by
  cases h with
  | nil => decide
  | cons hne hds hps hu hdvd hrest =>
    have hds := List.length_pos_iff.mpr hne
    have hunit := List.length_pos_iff.mpr (usable_of_unitNanos? hu).ne_nil
    simp only [List.length_append]
    omega

theorem isNumberByte_of_isDigit {b : UInt8} (h : isDigit b = true) : isNumberByte b = true := by
  rw [isNumberByte, h, Bool.true_or]

/-- The terms of a text are added up. -/
theorem terms_of_spells {t : Bytes} {n : Nat} (h : Spells t n) {fuel sum : Nat}
    (hfuel : t.length ≤ fuel) (hsum : sum + n ≤ limit) : terms fuel sum t = .ok (sum + n) := by
  induction h generalizing fuel sum with
  | nil => rw [terms, Nat.add_zero]
  | @cons ds ps u rest nanos n hne hds hps hu hdvd hrest ih =>
    generalize hm : value ds * nanos + value ps * (nanos / 10 ^ ps.length) = m at *
    have hterm : term (ds ++ (point ps ++ (u ++ rest))) = .ok (m, rest) := by
      rw [term_eq hne hds hps hu hdvd (fun b hb => isNumberByte_of_isDigit (hrest.head b hb))
        (by omega), hm]
    obtain ⟨b, ds, rfl⟩ := List.exists_cons_of_ne_nil hne
    have hb := isNumberByte_of_isDigit (isDigit_of_digits hds b List.mem_cons_self)
    have hmod : (sum + m) % Nat.pow 2 64 = sum + m := by
      refine Nat.mod_eq_of_lt (Nat.lt_of_le_of_lt (Nat.le_trans ?_ hsum) (by decide))
      omega
    have hlength : rest.length < fuel := by
      simp only [List.length_append, List.length_cons] at hfuel
      omega
    obtain ⟨fuel, rfl⟩ : ∃ f, fuel = f + 1 := ⟨fuel - 1, by omega⟩
    rw [List.cons_append] at hterm ⊢
    rw [terms, if_pos hb, hterm]
    simp only [bind, Except.bind]
    rw [hmod, if_neg (by omega), ih (by omega) (by omega), Nat.add_assoc]

/-- A sum of terms is read with its sign, up to the largest and down to the least duration. -/
theorem read_of_spells {t digits : Bytes} {negative : Bool} {n : Nat} {v : Int64}
    (hsign : sign t = (negative, digits)) (hne : digits ≠ []) (h : Spells digits n)
    (hv : v.toInt = if negative then -(n : Int) else n) : read t = .ok ⟨v⟩ := by
  have hlow := v.le_toInt
  have hhigh := v.toInt_lt
  have hle : n ≤ limit := by
    rw [limit_eq]
    split at hv <;> omega
  have hzero : digits ≠ utf8 "0" := fun hdigits => h.length_ne_one (by rw [hdigits]; rfl)
  have hterms : terms digits.length 0 digits = .ok (0 + n) :=
    terms_of_spells h (Nat.le_refl _) (by omega)
  rw [read, hsign]
  dsimp only
  rw [if_neg hzero, if_neg hne, hterms, Nat.zero_add]
  simp only [bind, Except.bind]
  cases negative with
  | true =>
    rw [if_pos rfl] at hv ⊢
    rw [← hv, Int64.ofInt_toInt]
  | false =>
    rw [if_neg Bool.false_ne_true] at hv ⊢
    have hlt : n < 2 ^ 63 := by omega
    have hword : Int64.ofNat n = v := by rw [← Int64.toInt_inj, Int64.toInt_ofNat_of_lt hlt, hv]
    rw [limit_eq, if_neg (Nat.not_le.mpr hlt), hword]

/-! ## The digits of a fraction -/

/-- The digits of a number below a power of ten as a fraction: with zeros in front of them, but none
at the end. -/
def places (k n : Nat) : Bytes := (padLeft (ascii '0') k (decimal n)).rdropWhile (· == ascii '0')

theorem decimalFraction_eq {k : Nat} (hk : 0 < k) (n : Nat) :
    decimalFraction k n = decimal (n / 10 ^ k) ++ point (places k (n % 10 ^ k)) := by
  change decimal (n / 10 ^ k) ++
    (if k = 0 ∨ places k (n % 10 ^ k) = [] then [] else 46 :: places k (n % 10 ^ k)) = _
  rw [point]
  by_cases hnil : places k (n % 10 ^ k) = []
  · rw [if_pos (.inr hnil), if_pos hnil]
  · rw [if_neg (not_or.mpr ⟨Nat.ne_of_gt hk, hnil⟩), if_neg hnil]

section Places

variable {k n : Nat}

theorem digits_places (k n : Nat) : Digits (places k n) :=
  fun b hb => digits_padLeft k n b ((List.rdropWhile_prefix _ _).subset hb)

/-- The zeros that are left away at the end count for the places that are missing. -/
theorem value_places (hk : 0 < k) (hn : n < 10 ^ k) :
    (places k n).length ≤ k ∧ value (places k n) * 10 ^ (k - (places k n).length) = n := by
  have hzeros : ∀ b ∈ (padLeft (ascii '0') k (decimal n)).rtakeWhile (· == ascii '0'), b = 48 := by
    intro b hb
    have hzero := List.mem_rtakeWhile_imp hb
    exact beq_iff_eq.mp hzero
  have hsplit : places k n ++ (padLeft (ascii '0') k (decimal n)).rtakeWhile (· == ascii '0') =
      padLeft (ascii '0') k (decimal n) := List.rdropWhile_append_rtakeWhile
  rw [List.eq_replicate_of_mem hzeros] at hsplit
  generalize ((padLeft (ascii '0') k (decimal n)).rtakeWhile (· == ascii '0')).length = j at hsplit
  have hlength := congrArg List.length hsplit
  rw [length_padLeft hk hn, List.length_append, List.length_replicate] at hlength
  have hvalue := congrArg value hsplit
  rw [value_padLeft, value_append, value_zeros, Nat.add_zero, List.length_replicate] at hvalue
  refine ⟨by omega, ?_⟩
  rwa [show k - (places k n).length = j by omega]

end Places

/-! ## Writing -/

theorem spells_decimal {u rest : Bytes} {nanos n : Nat} (k : Nat) (hu : unitNanos? u = some nanos)
    (hrest : Spells rest n) : Spells (decimal k ++ (u ++ rest)) (k * nanos + n) := by
  have h : Spells (decimal k ++ (point [] ++ (u ++ rest))) _ :=
    .cons (decimal_ne_nil k) (digits_decimal k) (List.forall_mem_nil _) hu (one_dvd nanos) hrest
  rw [value_decimal] at h
  simpa [point, value] using h

/-- A number divided by a power of ten, in a unit of that many nanoseconds. -/
theorem spells_decimalFraction {u : Bytes} {k : Nat} (hk : 0 < k)
    (hu : unitNanos? u = some (10 ^ k)) (n : Nat) :
    Spells (decimalFraction k n ++ u) n := by
  obtain ⟨hlength, hvalue⟩ := value_places hk (Nat.mod_lt n (Nat.pow_pos (show 0 < 10 by decide)))
  have h := Spells.cons (decimal_ne_nil (n / 10 ^ k)) (digits_decimal (n / 10 ^ k))
    (digits_places k (n % 10 ^ k)) hu
    (Nat.pow_dvd_pow 10 hlength) .nil
  rw [value_decimal, Nat.pow_div hlength (by decide), hvalue, Nat.div_add_mod', Nat.add_zero,
    List.append_nil] at h
  rw [decimalFraction_eq hk, List.append_assoc]
  exact h

theorem spells_clock (n : Nat) : Spells (clock n) n := by
  have hminute : unitNanos? (utf8 "m") = some 60000000000 := rfl
  have hhour : unitNanos? (utf8 "h") = some 3600000000000 := rfl
  have hseconds : Spells (decimalFraction 9 (n % 60000000000) ++ utf8 "s") (n % 60000000000) :=
    spells_decimalFraction (by decide) rfl _
  rw [clock]
  by_cases hm : n / 60000000000 = 0
  · rw [if_pos hm]
    convert hseconds using 1
    omega
  rw [if_neg hm]
  by_cases hh : n / 60000000000 / 60 = 0
  · rw [if_pos hh, List.append_assoc]
    convert spells_decimal (n / 60000000000) hminute hseconds using 1
    omega
  · rw [if_neg hh, List.append_assoc, List.append_assoc, List.append_assoc]
    convert spells_decimal (n / 60000000000 / 60) hhour
      (spells_decimal (n / 60000000000 % 60) hminute hseconds) using 1
    omega

/-- The text of a magnitude is a sum of terms that is the magnitude. -/
theorem spells_magnitude (n : Nat) : Spells (magnitude n) n := by
  rw [magnitude]
  by_cases hzero : n = 0
  · have htext : utf8 "0s" = decimal 0 ++ (utf8 "s" ++ []) := by
      rw [decimal]
      rfl
    rw [if_pos hzero, hzero, htext]
    exact spells_decimal 0 (u := utf8 "s") rfl .nil
  rw [if_neg hzero]
  by_cases hnano : n < 1000
  · rw [if_pos hnano]
    convert spells_decimal n (u := utf8 "ns") rfl .nil using 1
    · rw [List.append_nil]
    · omega
  rw [if_neg hnano]
  by_cases hmicro : n < 1000000
  · rw [if_pos hmicro]
    exact spells_decimalFraction (by decide) rfl n
  rw [if_neg hmicro]
  by_cases hmilli : n < 1000000000
  · rw [if_pos hmilli]
    exact spells_decimalFraction (by decide) rfl n
  · rw [if_neg hmilli]
    exact spells_clock n

theorem magnitude_ne_nil (n : Nat) : magnitude n ≠ [] := by
  by_cases hzero : n = 0
  · rw [magnitude, if_pos hzero]
    decide
  · exact (spells_magnitude n).ne_nil hzero

/-- Every duration is read back from its text, in whatever units it is written, up to the largest
and down to the least one that a word can hold. -/
theorem parse_toBytes (d : Duration) : parse d.toBytes = .ok d := by
  have hspells := spells_magnitude d.nanos.toInt.natAbs
  have hne := magnitude_ne_nil d.nanos.toInt.natAbs
  have hread : read d.toBytes = .ok d := by
    rw [toBytes]
    by_cases hneg : d.nanos.toInt < 0
    · have hsign : sign (ascii '-' :: magnitude d.nanos.toInt.natAbs) =
          (true, magnitude d.nanos.toInt.natAbs) := rfl
      rw [if_pos hneg]
      refine read_of_spells hsign hne hspells ?_
      rw [if_pos rfl]
      omega
    · rw [if_neg hneg]
      refine read_of_spells (sign_of_head fun b hb => ((isDigit_iff b).mp (hspells.head b hb)).1)
        hne hspells ?_
      rw [if_neg Bool.false_ne_true]
      omega
  rw [parse, hread]
  rfl

end StackMachine.Duration
