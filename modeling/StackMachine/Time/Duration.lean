import StackMachine.Number.Dyadic
import StackMachine.Text.Numeral

/-!
# Durations

A duration is a signed number of nanoseconds. It is written as a sequence of numbers with units,
largest unit first (`1h30m0s`, `1.5ms`), and `parse` reads any such sequence with an optional sign,
in which a number may have a fraction. A fraction is taken in 64-bit floating-point arithmetic, and
what is left below a nanosecond is dropped.
-/

namespace StackMachine

open Text

/-- A signed number of nanoseconds. -/
structure Duration where
  nanos : Int64
  deriving DecidableEq, Repr

namespace Duration

/-! ## Reading -/

/-- Why a text is not a duration. -/
inductive Reason where
  /-- It is not a sequence of numbers with units, or does not fit into 64 bits. -/
  | invalid
  /-- A number stands without a unit. -/
  | missingUnit
  /-- A number has a unit that does not exist. -/
  | unknownUnit (unit : Bytes)
  deriving DecidableEq, Repr

/-- A text that is not a duration. -/
structure Error where
  text : Bytes
  reason : Reason
  deriving DecidableEq, Repr

/-- A text between quotes, every byte that is not printable ASCII as `\x` and two digits. -/
def quotedBytes (t : Bytes) : Bytes :=
  let escapeByte (b : UInt8) : Bytes :=
    if b < 32 ∨ 128 ≤ b then backslash :: ascii 'x' :: hexDigits 2 b.toNat
    else if b = quoteMark ∨ b = backslash then [backslash, b]
    else [b]
  quoteMark :: t.flatMap escapeByte ++ [quoteMark]

/-- The wording of a duration that could not be read. -/
def Error.message (e : Error) : Bytes :=
  utf8 "invalid duration " ++ quoted e.text ++ utf8 ": time: " ++
    match e.reason with
    | .invalid => utf8 "invalid duration " ++ quotedBytes e.text
    | .missingUnit => utf8 "missing unit in duration " ++ quotedBytes e.text
    | .unknownUnit u =>
      utf8 "unknown unit " ++ quotedBytes u ++ utf8 " in duration " ++ quotedBytes e.text

/-- The nanoseconds in a unit. The micro sign may be `U+00B5` or `U+03BC`. -/
def unitNanos? (u : Bytes) : Option Nat :=
  [(utf8 "ns", 1), (utf8 "us", 1000), (utf8 "µs", 1000), (utf8 "μs", 1000), (utf8 "ms", 1000000),
    (utf8 "s", 1000000000), (utf8 "m", 60000000000), (utf8 "h", 3600000000000)].lookup u

/-- The largest magnitude of a duration. -/
def limit : Nat := Nat.pow 2 63

/-- Whether a byte is a decimal digit. -/
def isDigit (b : UInt8) : Bool := 48 ≤ b && b ≤ 57

/-- Whether a byte can begin a number. -/
def isNumberByte (b : UInt8) : Bool := isDigit b || b == ascii '.'

/-- The value of digits, unless it exceeds the limit. -/
def whole : (n : Nat) → Bytes → Option Nat
  | n, [] => some n
  | n, b :: rest =>
    let n := n * 10 + (b.toNat - 48)
    if limit < n then none else whole n rest

/-- The digits of a fraction as a number, and ten to the number of digits that were taken. Digits
that would exceed the limit are ignored, and so are all after them. -/
def fraction : (n scale : Nat) → Bytes → Nat × Nat
  | n, scale, [] => (n, scale)
  | n, scale, b :: rest =>
    let m := n * 10 + (b.toNat - 48)
    if (limit - 1) / 10 < n ∨ limit < m then (n, scale) else fraction m (scale * 10) rest

/-- The whole nanoseconds in `n / scale` units, in floating-point arithmetic. -/
def fractionNanos (n scale unit : Nat) : Nat :=
  ((Dyadic.ofNat n).mul ((Dyadic.ofNat unit).div (Dyadic.ofNat scale))).floor

/-- One number with its unit, in nanoseconds, and what follows it. -/
def term (t : Bytes) : Except Reason (Nat × Bytes) := do
  let digits := t.takeWhile isDigit
  let t := t.dropWhile isDigit
  let (places, t) :=
    match t with
    | 46 :: rest => (rest.takeWhile isDigit, rest.dropWhile isDigit)
    | _ => ([], t)
  let some n := whole 0 digits | .error .invalid
  if digits = [] ∧ places = [] then .error .invalid
  else
    let unit := t.takeWhile fun b => !isNumberByte b
    if unit = [] then .error .missingUnit
    else
      let some nanos := unitNanos? unit | .error (.unknownUnit unit)
      if limit / nanos < n then .error .invalid
      else
        let (f, scale) := fraction 0 1 places
        let total := n * nanos + (if 0 < f then fractionNanos f scale nanos else 0)
        if limit < total then .error .invalid
        else .ok (total, t.drop unit.length)

/-- The sum of the terms of a text, modulo `2 ^ 64`, added to a sum so far. Every term takes at
least a byte, so the length of the text is fuel enough. -/
def terms : (fuel sum : Nat) → Bytes → Except Reason Nat
  | _, sum, [] => .ok sum
  | 0, _, _ :: _ => .error .invalid
  | fuel + 1, sum, b :: rest =>
    if isNumberByte b then do
      let (n, t) ← term (b :: rest)
      let sum := (sum + n) % Nat.pow 2 64
      if limit < sum then .error .invalid else terms fuel sum t
    else .error .invalid

/-- The duration that a text spells, or why it spells none. -/
def read (t : Bytes) : Except Reason Duration := do
  let (negative, digits) := Numeral.sign t
  if digits = utf8 "0" then .ok ⟨0⟩
  else if digits = [] then .error .invalid
  else
    let sum ← terms digits.length 0 digits
    if negative then .ok ⟨Int64.ofInt (-sum)⟩
    else if limit ≤ sum then .error .invalid
    else .ok ⟨Int64.ofNat sum⟩

/-- The duration that a text spells, or an error that quotes it. -/
def parse (t : Bytes) : Except Error Duration := (read t).mapError fun reason => ⟨t, reason⟩

/-! ## Writing -/

/-- A number divided by ten to some power, as a decimal fraction without trailing zeros. -/
def decimalFraction (places n : Nat) : Bytes :=
  let digits := padLeft (ascii '0') places (decimal (n % Nat.pow 10 places))
  let shown := (digits.reverse.dropWhile (· == ascii '0')).reverse
  decimal (n / Nat.pow 10 places) ++
    (if places = 0 ∨ shown = [] then [] else ascii '.' :: shown)

/-- A magnitude of at least a second: hours, minutes and seconds, the leading ones only when they
are not zero. -/
def clock (n : Nat) : Bytes :=
  let minutes := n / 60000000000
  let seconds := decimalFraction 9 (n % 60000000000) ++ utf8 "s"
  if minutes = 0 then seconds
  else if minutes / 60 = 0 then decimal minutes ++ utf8 "m" ++ seconds
  else decimal (minutes / 60) ++ utf8 "h" ++ decimal (minutes % 60) ++ utf8 "m" ++ seconds

/-- A magnitude in nanoseconds, in the largest fitting unit below a second or as a clock shows
it. -/
def magnitude (n : Nat) : Bytes :=
  if n = 0 then utf8 "0s"
  else if n < 1000 then decimal n ++ utf8 "ns"
  else if n < 1000000 then decimalFraction 3 n ++ utf8 "µs"
  else if n < 1000000000 then decimalFraction 6 n ++ utf8 "ms"
  else clock n

/-- The text of a duration. -/
def toBytes (d : Duration) : Bytes :=
  let n := d.nanos.toInt
  if n < 0 then ascii '-' :: magnitude n.natAbs else magnitude n.natAbs

end Duration

end StackMachine
