import Mathlib.Algebra.Group.Nat.Defs
import StackMachine.Number.Dyadic

/-!
# Floating-point arithmetic that is exact

Every floating-point operation rounds, but a number with at most 53 binary digits is its own
rounding. So whole numbers below `2 ^ 53` are themselves (`equals_ofNat`), and products and
quotients of them are exact as long as they are whole numbers below `2 ^ 53` again (`Equals.mul`,
`Equals.div`). It all comes down to the last place that 53 digits reach: it lies behind the point
for every such quotient (`lastPlace_nonpos`), and then nothing is rounded away.
-/

namespace StackMachine.Dyadic

/-- The floating-point number is this whole number. -/
def Equals (x : Dyadic) (n : Nat) : Prop := x.ratio.1 = n * x.ratio.2

theorem ratio_pos (x : Dyadic) : 0 < x.ratio.2 := Nat.pow_pos (by decide)

theorem Equals.floor {x : Dyadic} {n : Nat} (h : x.Equals n) : x.floor = n := by
  rw [Dyadic.floor, h, Nat.mul_div_cancel n x.ratio_pos]

/-! ## Rounding a quotient that is whole -/

theorem roundDiv_mul (n : Nat) {b : Nat} (hb : 0 < b) : roundDiv (n * b) b = n := by
  have hexact : ¬ (b < 2 * 0 ∨ b = 2 * 0 ∧ n % 2 = 1) := by omega
  rw [roundDiv, Nat.mul_div_cancel n hb, Nat.mul_mod_left]
  exact if_neg hexact

/-- The 53 digits of a quotient below `2 ^ 53` reach behind the point. -/
theorem lastPlace_nonpos {n b : Nat} (hn : n < 2 ^ 53) (hb : 0 < b) : lastPlace (n * b) b ≤ 0 := by
  have hlog : (n * b).log2 ≤ b.log2 + 53 := by
    by_cases hzero : n * b = 0
    · rw [hzero]
      simp
    · refine Nat.le_of_lt_succ ((Nat.log2_lt hzero).mpr ?_)
      calc n * b < 2 ^ 53 * 2 ^ (b.log2 + 1) := Nat.mul_lt_mul'' hn Nat.lt_log2_self
        _ = 2 ^ (b.log2 + 53 + 1) := by rw [← Nat.pow_add]; congr 1; omega
  rw [lastPlace]
  generalize hguess : ((n * b).log2 : Int) - b.log2 - 52 = guess
  dsimp only [scaled]
  refine Int.max_le.mpr ⟨by decide, ?_⟩
  by_cases hone : guess = 1
  · -- the guess is one place too high, as half of the quotient shows
    have hhalf : n * b * Nat.pow 2 (-guess).toNat / (b * Nat.pow 2 guess.toNat) < Nat.pow 2 52 := by
      rw [hone]
      change n * b * 1 / (b * 2) < 2 ^ 52
      rw [Nat.mul_one, ← Nat.div_div_eq_div_mul, Nat.mul_div_cancel n hb]
      omega
    rw [if_pos hhalf, hone]
    decide
  · split
    · omega
    · omega

/-- A whole number below `2 ^ 53` is not rounded, however it is written as a quotient. -/
theorem equals_nearest {n b : Nat} (hn : n < 2 ^ 53) (hb : 0 < b) :
    (nearest (n * b) b).Equals n := by
  rw [nearest]
  by_cases hzero : n * b = 0
  · have hn0 : n = 0 := (Nat.mul_eq_zero.mp hzero).resolve_right (Nat.ne_of_gt hb)
    rw [if_pos hzero, hn0]
    rfl
  · obtain ⟨k, hk⟩ : ∃ k : Nat, lastPlace (n * b) b = -(k : Int) := by
      refine ⟨(-lastPlace (n * b) b).toNat, ?_⟩
      have hplace := lastPlace_nonpos hn hb
      omega
    have hdown : (-(k : Int)).toNat = 0 := by omega
    have hup : (-(-(k : Int))).toNat = k := by omega
    rw [if_neg hzero, hk]
    dsimp only [scaled]
    rw [hdown, hup, Nat.mul_right_comm, show b * Nat.pow 2 0 = b from Nat.mul_one b,
      roundDiv_mul _ hb, Equals, ratio]
    dsimp only
    rw [hdown, hup]
    exact Nat.mul_one _

theorem equals_ofNat {n : Nat} (hn : n < 2 ^ 53) : (ofNat n).Equals n := by
  have h := equals_nearest hn Nat.one_pos
  rwa [Nat.mul_one] at h

/-! ## Products and quotients -/

theorem Equals.mul {x y : Dyadic} {m n : Nat} (hx : x.Equals m) (hy : y.Equals n)
    (h : m * n < 2 ^ 53) :
    (x.mul y).Equals (m * n) := by
  have hproduct : x.ratio.1 * y.ratio.1 = m * n * (x.ratio.2 * y.ratio.2) := by
    rw [hx, hy, Nat.mul_mul_mul_comm]
  rw [Dyadic.mul]
  dsimp only
  rw [hproduct]
  exact equals_nearest h (Nat.mul_pos x.ratio_pos y.ratio_pos)

theorem Equals.div {x y : Dyadic} {m n : Nat} (hx : x.Equals (m * n)) (hy : y.Equals n) (hn : 0 < n)
    (h : m < 2 ^ 53) : (x.div y).Equals m := by
  have hquotient : x.ratio.1 * y.ratio.2 = m * (x.ratio.2 * y.ratio.1) := by
    rw [hx, hy]
    ac_rfl
  rw [Dyadic.div]
  dsimp only
  rw [hquotient]
  refine equals_nearest h (Nat.mul_pos x.ratio_pos ?_)
  rw [hy]
  exact Nat.mul_pos hn y.ratio_pos

end StackMachine.Dyadic
