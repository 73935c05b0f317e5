import StackMachine.Text.Bytes

/-!
# Binary floating-point numbers

A non-negative binary floating-point number is a multiple of a power of two. `nearest` rounds an
exact quotient to the closest such number with at most 53 binary digits, a tie going to the even
neighbour, which is how every operation on 64-bit floating-point numbers rounds.
-/

namespace StackMachine

open Text

/-- The number `mantissa * 2 ^ exponent`. -/
structure Dyadic where
  mantissa : Nat
  exponent : Int
  deriving DecidableEq, Repr

namespace Dyadic

/-- The quotient rounded to the nearest whole number, a tie to the even one. -/
def roundDiv (numerator denominator : Nat) : Nat :=
  let q := numerator / denominator
  let r := numerator % denominator
  if denominator < 2 * r ∨ (denominator = 2 * r ∧ q % 2 = 1) then q + 1 else q

/-- A quotient of numbers scaled down by a power of two. -/
def scaled (numerator denominator : Nat) (shift : Int) : Nat × Nat :=
  (numerator * Nat.pow 2 (-shift).toNat, denominator * Nat.pow 2 shift.toNat)

/-- The exponent of the last place that 53 digits of a quotient reach. No place is finer than
`2 ^ -1074`. -/
def lastPlace (numerator denominator : Nat) : Int :=
  let guess : Int := (numerator.log2 : Int) - denominator.log2 - 52
  let (n, d) := scaled numerator denominator guess
  max (-1074) (if n / d < Nat.pow 2 52 then guess - 1 else guess)

/-- The number nearest to a quotient, with at most 53 binary digits. -/
def nearest (numerator denominator : Nat) : Dyadic :=
  if numerator = 0 then ⟨0, 0⟩
  else
    let place := lastPlace numerator denominator
    let (n, d) := scaled numerator denominator place
    ⟨roundDiv n d, place⟩

/-- A number as a quotient of whole numbers. -/
def ratio (x : Dyadic) : Nat × Nat :=
  (x.mantissa * Nat.pow 2 x.exponent.toNat, Nat.pow 2 (-x.exponent).toNat)

/-- A whole number, rounded. -/
def ofNat (n : Nat) : Dyadic := nearest n 1

/-- The product of two numbers, rounded. -/
def mul (x y : Dyadic) : Dyadic :=
  let (a, b) := x.ratio
  let (c, d) := y.ratio
  nearest (a * c) (b * d)

/-- The quotient of two numbers, rounded. -/
def div (x y : Dyadic) : Dyadic :=
  let (a, b) := x.ratio
  let (c, d) := y.ratio
  nearest (a * d) (b * c)

/-- The whole part of a number. -/
def floor (x : Dyadic) : Nat := x.ratio.1 / x.ratio.2

/-- Whether a number is too large for a 64-bit floating-point number. -/
def overflows (x : Dyadic) : Bool := Nat.pow 2 1024 * x.ratio.2 ≤ x.ratio.1

/-- A number in decimal with a given number of places, rounded to the nearest, a tie to the even
neighbour. -/
def fixed (places : Nat) (x : Dyadic) : Bytes :=
  let (a, b) := x.ratio
  let scaledUp := roundDiv (a * Nat.pow 10 places) b
  let whole := decimal (scaledUp / Nat.pow 10 places)
  if places = 0 then whole
  else whole ++ utf8 "." ++ padLeft (ascii '0') places (decimal (scaledUp % Nat.pow 10 places))

end Dyadic

end StackMachine
