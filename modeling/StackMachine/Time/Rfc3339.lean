import StackMachine.Time.Instant
import StackMachine.Text.Numeral

/-!
# Times as text

Reads `2006-01-02T15:04:05Z` and `2006-01-02T15:04:05+07:00`. Every field has two digits and the
year four, except that the hour may have one. A fraction of a second may follow the seconds, after a
point or a comma; digits past the ninth are dropped.

`write` is the way back: a fraction is written without trailing zeros and only when there is one.
-/

namespace StackMachine.Rfc3339

open Text

/-- A given byte. -/
def expect (b : UInt8) : Bytes → Option Bytes
  | a :: rest => if a = b then some rest else none
  | [] => none

/-- Two digits. -/
def twoDigits : Bytes → Option (Nat × Bytes)
  | a :: b :: rest => do
    let x ← Numeral.digit? a
    let y ← Numeral.digit? b
    some (x * 10 + y, rest)
  | _ => none

/-- One or two digits. -/
def upToTwoDigits : Bytes → Option (Nat × Bytes)
  | a :: rest => do
    let x ← Numeral.digit? a
    match rest with
    | b :: rest' =>
      match Numeral.digit? b with
      | some y => some (x * 10 + y, rest')
      | none => some (x, rest)
    | [] => some (x, [])
  | [] => none

/-- Four digits. -/
def fourDigits (t : Bytes) : Option (Nat × Bytes) := do
  let (high, t) ← twoDigits t
  let (low, t) ← twoDigits t
  some (high * 100 + low, t)

/-- A fraction of a second in nanoseconds, zero when there is none. -/
def fraction (t : Bytes) : Nat × Bytes :=
  match t with
  | mark :: rest =>
    let digits := rest.takeWhile fun b => (Numeral.digit? b).isSome
    if (mark = ascii '.' ∨ mark = ascii ',') ∧ digits ≠ [] then
      let shown := digits.take 9
      let value := shown.foldl (fun n b => n * 10 + (b.toNat - 48)) 0
      (value * Nat.pow 10 (9 - shown.length), rest.drop digits.length)
    else (0, t)
  | [] => (0, [])

/-- An offset from UTC in seconds. -/
def offset : Bytes → Option (Int × Bytes)
  | [] => none
  | mark :: rest =>
    if mark = ascii 'Z' then some (0, rest)
    else do
      let (hours, t) ← twoDigits rest
      let t ← expect (ascii ':') t
      let (minutes, t) ← twoDigits t
      if 24 < hours ∨ 60 < minutes then none
      else if mark = ascii '+' then some ((hours * 60 + minutes) * 60, t)
      else if mark = ascii '-' then some (-((hours * 60 + minutes) * 60), t)
      else none

/-- The instant that a text names. -/
def parse (t : Bytes) : Option Instant := do
  let (year, t) ← fourDigits t
  let t ← expect (ascii '-') t
  let (month, t) ← twoDigits t
  let t ← expect (ascii '-') t
  let (day, t) ← twoDigits t
  let t ← expect (ascii 'T') t
  let (hour, t) ← upToTwoDigits t
  let t ← expect (ascii ':') t
  let (minute, t) ← twoDigits t
  let t ← expect (ascii ':') t
  let (second, t) ← twoDigits t
  let (nanos, t) := fraction t
  let (east, t) ← offset t
  if t = [] ∧ 1 ≤ month ∧ month ≤ 12 ∧ 1 ≤ day ∧ day ≤ Instant.daysIn year month
      ∧ hour < 24 ∧ minute < 60 ∧ second < 60 then
    let civil : Instant.Civil := ⟨year, month, day, hour, minute, second⟩
    some ⟨Int64.ofInt (civil.toUnix - east), nanos⟩
  else none

/-! ## Writing -/

/-- A number with at least two digits. -/
def pair (n : Nat) : Bytes := padLeft (ascii '0') 2 (decimal n)

/-- Nanoseconds as a fraction of a second, nothing when there are none. -/
def writeFraction (nanos : Nat) : Bytes :=
  let digits := padLeft (ascii '0') 9 (decimal nanos)
  if nanos = 0 then []
  else ascii '.' :: (digits.reverse.dropWhile (· == ascii '0')).reverse

/-- An offset from UTC in seconds, of which whole minutes are shown. -/
def writeOffset (seconds : Int) : Bytes :=
  let minutes := seconds.tdiv 60
  if seconds = 0 then utf8 "Z"
  else ascii (if minutes < 0 then '-' else '+') :: pair (minutes.natAbs / 60) ++ utf8 ":"
    ++ pair (minutes.natAbs % 60)

/-- A date and time with a fraction of a second and an offset from UTC in seconds. -/
def write (c : Instant.Civil) (nanos : Nat) (offset : Int) : Bytes :=
  padLeft (ascii '0') 4 (signed c.year) ++ utf8 "-" ++ pair c.month ++ utf8 "-" ++ pair c.day
    ++ utf8 "T" ++ pair c.hour ++ utf8 ":" ++ pair c.minute ++ utf8 ":" ++ pair c.second
    ++ writeFraction nanos ++ writeOffset offset

end StackMachine.Rfc3339
