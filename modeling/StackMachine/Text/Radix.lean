import StackMachine.Text.Numeral

/-!
# Integers in several bases

A signed 64-bit integer in decimal, or in another base that its beginning tells: `0x` for
hexadecimal, `0b` for binary, `0o` or a plain leading zero for octal. An underscore may stand
between two digits, and between the sign of a base and the first digit.

As for decimal numerals, the scan stops at the first digit that takes the magnitude past 64 bits.
-/

namespace StackMachine.Radix

open Text Numeral

/-- A byte, with a letter made lower case. -/
def lower (b : UInt8) : UInt8 := b ||| 0x20

/-- The value of a digit or letter in any base up to 36. -/
def digit? (b : UInt8) : Option Nat :=
  match Numeral.digit? b with
  | some d => some d
  | none => if 97 ≤ lower b ∧ lower b ≤ 122 then some ((lower b).toNat - 87) else none

/-- The base that the beginning of a text tells, and the digits after it. A sign of a base with
nothing after it is none. -/
def base : Bytes → Nat × Bytes
  | 48 :: b :: c :: rest =>
    if lower b = ascii 'b' then (2, c :: rest)
    else if lower b = ascii 'o' then (8, c :: rest)
    else if lower b = ascii 'x' then (16, c :: rest)
    else (8, b :: c :: rest)
  | 48 :: rest => (8, rest)
  | t => (10, t)

/-- Reads digits of a base onto a magnitude that is already below `2 ^ 64`, passing underscores. -/
def scan (radix : Nat) : (magnitude : Nat) → Bytes → Except Reason Nat
  | n, [] => .ok n
  | n, b :: rest =>
    if b = ascii '_' then scan radix n rest
    else match digit? b with
      | none => .error .malformed
      | some d =>
        if radix ≤ d then .error .malformed
        else if Nat.pow 2 64 ≤ n * radix + d then .error .outOfRange
        else scan radix (n * radix + d) rest

/-- Whether every underscore follows a digit and is followed by one. -/
def separated : (afterDigit : Bool) → Bytes → Bool
  | _, [] => true
  | afterDigit, b :: rest =>
    if b = ascii '_' then
      afterDigit && rest != [] && separated false rest
    else separated true rest

/-- The magnitude that a text without a sign spells. -/
def magnitude (t : Bytes) : Except Reason Nat := do
  let (radix, digits) := base t
  let n ← if t = [] then .error .malformed else scan radix 0 digits
  -- The zero of an octal number and the sign of any other base count as a digit.
  if separated (radix != 10) digits then .ok n else .error .malformed

/-- The value of a text, or why it has none. -/
def read (t : Bytes) : Except Reason Int64 := do
  let (negative, digits) := sign t
  let n ← magnitude digits
  if negative then
    if Nat.pow 2 63 < n then .error .outOfRange else .ok (Int64.ofInt (-n))
  else
    if Nat.pow 2 63 ≤ n then .error .outOfRange else .ok (Int64.ofNat n)

end StackMachine.Radix
