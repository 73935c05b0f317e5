import StackMachine.Text.Quoted

/-!
# Signed decimal numerals

An instruction's argument is an optional sign followed by decimal digits, read as a signed 64-bit
number. A numeral is scanned from the left, and the scan stops at the first digit that takes the
magnitude past 64 bits; so a numeral that is both too large and malformed further on is reported
as out of range.
-/

namespace StackMachine

namespace Numeral

/-- Why a text is not a signed 64-bit numeral. -/
inductive Reason where
  | malformed
  | outOfRange
  deriving DecidableEq, Repr

/-- A text that is not a signed 64-bit numeral. -/
structure Error where
  text : Bytes
  reason : Reason
  deriving DecidableEq, Repr

/-- The wording of a reason. -/
def Reason.message : Reason → Bytes
  | .malformed => Text.utf8 "invalid syntax"
  | .outOfRange => Text.utf8 "value out of range"

/-- The wording of a numeral that could not be read. -/
def Error.message (e : Error) : Bytes :=
  Text.utf8 "strconv.ParseInt: parsing " ++ Text.quoted e.text ++ Text.utf8 ": " ++
    e.reason.message

/-- The value of a decimal digit. -/
def digit? (b : UInt8) : Option Nat :=
  if 48 ≤ b ∧ b ≤ 57 then some (b.toNat - 48) else none

/-- Reads digits onto a magnitude that is already below `2 ^ 64`. -/
def scan : (magnitude : Nat) → Bytes → Except Reason Nat
  | n, [] => .ok n
  | n, b :: rest =>
    match digit? b with
    | none => .error .malformed
    | some d => if Nat.pow 2 64 ≤ n * 10 + d then .error .outOfRange else scan (n * 10 + d) rest

/-- The magnitude that one or more digits spell. -/
def magnitude : Bytes → Except Reason Nat
  | [] => .error .malformed
  | b :: rest => scan 0 (b :: rest)

/-- The sign of a numeral, `true` for minus, and the digits after it. -/
def sign : Bytes → Bool × Bytes
  | 43 :: rest => (false, rest)
  | 45 :: rest => (true, rest)
  | t => (false, t)

/-- The value of a numeral, or why it has none. -/
def read (t : Bytes) : Except Reason Int64 := do
  let (negative, digits) := sign t
  let n ← magnitude digits
  if negative then
    if Nat.pow 2 63 < n then .error .outOfRange else .ok (Int64.ofInt (-n))
  else
    if Nat.pow 2 63 ≤ n then .error .outOfRange else .ok (Int64.ofNat n)

/-- The value of a numeral, or an error that quotes it. -/
def parse (t : Bytes) : Except Error Int64 :=
  (read t).mapError fun reason => ⟨t, reason⟩

end Numeral

end StackMachine
