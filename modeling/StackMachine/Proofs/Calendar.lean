import Mathlib.Tactic.SplitIfs
import StackMachine.Time.Instant

/-!
# Dates and times

The date and time of an instant are found by looking up the cycle of 400 years, then the year, then
the month. This module shows that they denote the second of the instant: the calendar has such a
date and such a time of day, and they lie as many seconds after the start of 1970 as the instant
does (`Instant.denotes_toCivil`).
-/

namespace StackMachine.Instant

/-- The calendar has such a date and such a time of day, and they lie so many seconds after the
start of 1970. -/
structure Civil.Denotes (c : Civil) (seconds : Int) : Prop where
  month_pos : 1 ≤ c.month
  month_le : c.month ≤ 12
  day_pos : 1 ≤ c.day
  day_le : c.day ≤ daysIn c.year c.month
  hour_lt : c.hour < 24
  minute_lt : c.minute < 60
  second_lt : c.second < 60
  toUnix_eq : c.toUnix = seconds

/-! ## Months -/

theorem daysBeforeMonth_succ (year : Int) {month : Nat} (h : 1 ≤ month) :
    daysBeforeMonth year (month + 1) = daysBeforeMonth year month + daysIn year month := by
  obtain ⟨k, rfl⟩ : ∃ k, month = k + 1 := ⟨month - 1, by omega⟩
  simp only [daysBeforeMonth, Nat.add_sub_cancel, List.range_succ, List.foldl_append,
    List.foldl_cons, List.foldl_nil]

/-- Looking for the month of a day passes whole months, and stops at one in which the day lies
unless it runs out of fuel. -/
theorem monthOfDay_spec {year : Int} {fuel month day : Nat} {found : Nat × Nat} (h : 1 ≤ month)
    (hfound : monthOfDay year fuel month day = found) :
    daysBeforeMonth year found.1 + found.2 = daysBeforeMonth year month + day ∧ month ≤ found.1 ∧
      found.1 ≤ month + fuel ∧ (found.2 < daysIn year found.1 ∨ found.1 = month + fuel) := by
  induction fuel generalizing month day with
  | zero =>
    subst hfound
    exact ⟨rfl, Nat.le_refl _, Nat.le_refl _, .inr rfl⟩
  | succ fuel ih =>
    rw [monthOfDay] at hfound
    split_ifs at hfound with hday
    · subst hfound
      exact ⟨rfl, Nat.le_refl _, by omega, .inl hday⟩
    · obtain ⟨hsum, hfrom, hto, hstop⟩ := ih (Nat.le_add_left 1 month) hfound
      rw [daysBeforeMonth_succ year h] at hsum
      omega

/-- A day of a year, counted from zero, lies in one of its months. -/
theorem monthOfDay_of_lt {year : Int} {day : Nat} {found : Nat × Nat}
    (h : day < daysBeforeMonth year 13) (hfound : monthOfDay year 11 1 day = found) :
    1 ≤ found.1 ∧ found.1 ≤ 12 ∧ found.2 < daysIn year found.1 ∧
    daysBeforeMonth year found.1 + found.2 = day := by
  obtain ⟨hsum, hfrom, hto, hstop⟩ := monthOfDay_spec (Nat.le_refl 1) hfound
  have hfirst : daysBeforeMonth year 1 = 0 := rfl
  rcases hstop with hfit | hlast
  · exact ⟨hfrom, hto, hfit, by omega⟩
  · -- the fuel is used up in December, where the day has to lie
    have hyear : daysBeforeMonth year 13 = daysBeforeMonth year 12 + daysIn year 12 :=
      daysBeforeMonth_succ year (by decide)
    have hlast : found.1 = 12 := hlast
    rw [hlast] at hsum ⊢
    omega

/-! ## Years -/

/-- A year has twelve months, and as many days as lie between its start and that of the next one. -/
theorem daysBeforeYear_succ (year : Int) :
    daysBeforeYear (year + 1) = daysBeforeYear year + daysBeforeMonth year 13 := by
  have hdays : (daysBeforeMonth year 13 : Int) = 365 + (if isLeap year then 1 else 0) := by
    simp only [daysBeforeMonth, List.range, List.range.loop, List.foldl_cons, List.foldl_nil,
      daysIn]
    split_ifs <;> rfl
  rw [hdays, isLeap, daysBeforeYear, daysBeforeYear]
  simp only [Bool.and_eq_true, Bool.or_eq_true, beq_iff_eq, bne_iff_ne]
  split_ifs <;> omega

/-- All cycles of 400 years have the same number of days. -/
theorem daysBeforeYear_add_cycle (cycle year : Int) :
    daysBeforeYear (cycle * 400 + year) = cycle * 146097 + daysBeforeYear year := by
  unfold daysBeforeYear
  dsimp only
  omega

/-- The year of a cycle that a day lies in is found from the guess that all years have 366 days. -/
theorem daysBeforeYear_guess {day years : Nat} (h : day < 146097)
    (hyears : (if daysBeforeYear ((day / 366 : Nat) + 2) ≤ day then day / 366 + 1 else day / 366) =
      years) :
    daysBeforeYear (years + 1) ≤ day ∧ day < daysBeforeYear (years + 1 + 1) := by
  generalize hguess : day / 366 = guess at hyears
  split_ifs at hyears with hnext
  · have hsame : (years : Int) + 1 = guess + 2 := by omega
    rw [hsame]
    refine ⟨hnext, ?_⟩
    dsimp only [daysBeforeYear]
    omega
  · subst hyears
    rw [Int.add_assoc]
    refine ⟨?_, Int.not_le.mp hnext⟩
    dsimp only [daysBeforeYear]
    omega

/-! ## Instants -/

/-- The date and time of an instant denote its second. -/
theorem denotes_toCivil (t : Instant) : t.toCivil.Denotes t.sec.toInt := by
  unfold toCivil
  dsimp only
  generalize hdays : t.sec.toInt / 86400 + daysBeforeEpoch = days
  generalize hinCycle : (days % 146097).toNat = inCycle
  generalize hyears :
    (if daysBeforeYear ((inCycle / 366 : Nat) + 2) ≤ inCycle then inCycle / 366 + 1
    else inCycle / 366) = years
  obtain ⟨hstart, hend⟩ := daysBeforeYear_guess (by omega) hyears
  generalize hcycle : days / 146097 = cycle
  generalize hyear : cycle * 400 + years + 1 = year
  have hbefore : daysBeforeYear year = cycle * 146097 + daysBeforeYear (years + 1) := by
    rw [← hyear, Int.add_assoc, daysBeforeYear_add_cycle]
  have hlength : daysBeforeYear year + daysBeforeMonth year 13 =
      cycle * 146097 + daysBeforeYear (years + 1 + 1) := by
    rw [← daysBeforeYear_succ, ← hyear, Int.add_assoc, Int.add_assoc, ← Int.add_assoc (years : Int),
      daysBeforeYear_add_cycle]
  have hpos : 0 ≤ daysBeforeYear (years + 1) := by
    dsimp only [daysBeforeYear]
    omega
  rcases hfound : monthOfDay year 11 1 (inCycle - (daysBeforeYear (years + 1)).toNat) with
    ⟨month, day⟩
  obtain ⟨hfirst, hlast, hday, hsum⟩ := monthOfDay_of_lt (by omega) hfound
  dsimp only at hfirst hlast hday hsum ⊢
  refine ⟨hfirst, hlast, Nat.le_add_left 1 day, hday, ?_, ?_, ?_, ?_⟩
  · show _ / 3600 < 24
    omega
  · exact Nat.mod_lt _ (by decide)
  · exact Nat.mod_lt _ (by decide)
  · dsimp only [Civil.toUnix]
    rw [hbefore]
    omega

end StackMachine.Instant
