import StackMachine.Toml.Value

/-!
# TOML numbers, dates and times

A number or date is read in two steps: the characters that can belong to it are taken, then they
are judged as a whole.
-/

namespace StackMachine.Toml

open Text

/-- The value of decimal digits. -/
def digitsValue (base : Nat) (ds : List Nat) : Nat := ds.foldl (fun n d => n * base + d) 0

/-- The value of a digit of a number in some base up to sixteen. -/
def digitOf? (base : Nat) (c : Char) : Option Nat :=
  let d :=
    if '0' ≤ c ∧ c ≤ '9' then c.toNat - '0'.toNat
    else if 'a' ≤ c ∧ c ≤ 'f' then c.toNat - 'a'.toNat + 10
    else if 'A' ≤ c ∧ c ≤ 'F' then c.toNat - 'A'.toNat + 10
    else 16
  if d < base then some d else none

/-- The digits of a text in which single underscores may stand between digits. -/
def digits? (base : Nat) : List Char → Option (List Nat)
  | [] => none
  | [c] => (digitOf? base c).map ([·])
  | c :: '_' :: rest => do some ((← digitOf? base c) :: (← digits? base rest))
  | c :: rest => do some ((← digitOf? base c) :: (← digits? base rest))

/-- The sign of a number, `true` for minus, and what follows it. -/
def numberSign : List Char → Bool × List Char
  | '-' :: rest => (true, rest)
  | '+' :: rest => (false, rest)
  | t => (false, t)

/-- Decimal digits that do not begin with a zero, unless they are the zero alone. -/
def decimalDigits? (t : List Char) : Option (List Nat) := do
  let ds ← digits? 10 t
  if ds.head? = some 0 ∧ 1 < t.length then none else some ds

/-- A number in the range of signed 64-bit integers. -/
def integer? (negative : Bool) (n : Nat) : Option Value :=
  if negative then if n ≤ Nat.pow 2 63 then some (.integer (Int64.ofInt (-n))) else none
  else if n < Nat.pow 2 63 then some (.integer (Int64.ofNat n)) else none

/-- The number nearest to `n * 10 ^ exponent`, where `n` has `size` digits; nothing when it is too
large. Numbers far beyond the range are not computed. -/
def scaleDecimal? (n size : Nat) (exponent : Int) : Option Dyadic :=
  if n = 0 ∨ size + exponent < -330 then some ⟨0, 0⟩
  else if 310 < size + exponent then none
  else
    let d := Dyadic.nearest (n * Nat.pow 10 exponent.toNat) (Nat.pow 10 (-exponent).toNat)
    if d.overflows then none else some d

/-- The exponent of a floating-point number: zero when there is none. -/
def exponent? : List Char → Option Int
  | [] => some 0
  | mark :: rest =>
    if mark = 'e' ∨ mark = 'E' then do
      let (negative, t) := numberSign rest
      let n := digitsValue 10 (← digits? 10 t)
      some (if negative then -n else n)
    else none

/-- The fraction of a floating-point number: no digits when there is none. A point is followed by a
digit. -/
def fractionDigits? : List Char → Option (List Nat)
  | '.' :: rest => digits? 10 rest
  | [] => some []
  | _ => none

/-- The floating-point number that a text spells. -/
def float? (t : List Char) : Option Value := do
  let (negative, t) := numberSign t
  let isMark (c : Char) : Bool := c == '.' || c == 'e' || c == 'E'
  let isExponentMark (c : Char) : Bool := c == 'e' || c == 'E'
  let whole ← decimalDigits? (t.takeWhile (!isMark ·))
  let t := t.dropWhile (!isMark ·)
  let places ← fractionDigits? (t.takeWhile (!isExponentMark ·))
  let exponent ← exponent? (t.dropWhile (!isExponentMark ·))
  let ds := (whole ++ places).dropWhile (· == 0)
  let d ← scaleDecimal? (digitsValue 10 ds) ds.length (exponent - places.length)
  some (.decimal (.finite negative d))

/-! ## Dates and times -/

/-- A date. -/
def date? (t : Bytes) : Option ((Nat × Nat × Nat) × Bytes) := do
  let (year, t) ← Rfc3339.fourDigits t
  let t ← Rfc3339.expect (ascii '-') t
  let (month, t) ← Rfc3339.twoDigits t
  let t ← Rfc3339.expect (ascii '-') t
  let (day, t) ← Rfc3339.twoDigits t
  if 1 ≤ month ∧ month ≤ 12 ∧ 1 ≤ day ∧ day ≤ Instant.daysIn year month then
    some ((year, month, day), t)
  else none

/-- A time of day, of which seconds and their fraction may be left out. -/
def time? (t : Bytes) : Option ((Nat × Nat × Nat × Nat) × Bytes) := do
  let (hour, t) ← Rfc3339.twoDigits t
  let t ← Rfc3339.expect (ascii ':') t
  let (minute, t) ← Rfc3339.twoDigits t
  if hour < 24 ∧ minute < 60 then
    match Rfc3339.expect (ascii ':') t with
    | none => some ((hour, minute, 0, 0), t)
    | some t =>
      let (second, t) ← Rfc3339.twoDigits t
      let (nanos, t) := Rfc3339.fraction t
      if second < 60 then some ((hour, minute, second, nanos), t) else none
  else none

/-- A text that is a time of day. -/
def localTime? (t : Bytes) : Option Moment := do
  match ← time? t with
  | ((hour, minute, second, nanos), []) => some ⟨⟨0, 1, 1, hour, minute, second⟩, nanos, 0⟩
  | _ => none

/-- A text that is a date, or a date and a time, or these and an offset. -/
def dateTime? (t : Bytes) : Option Moment := do
  let ((year, month, day), t) ← date? t
  if t = [] then some ⟨⟨year, month, day, 0, 0, 0⟩, 0, 0⟩
  else
    let t ← Rfc3339.expect (ascii 'T') t
    let ((hour, minute, second, nanos), t) ← time? t
    let civil : Instant.Civil := ⟨year, month, day, hour, minute, second⟩
    if t = [] then some ⟨civil, nanos, 0⟩
    else match ← Rfc3339.offset t with
      | (seconds, []) => some ⟨civil, nanos, seconds / 60⟩
      | _ => none

/-- Whether a character can belong to a date or time. -/
def isMomentChar (c : Char) : Bool :=
  c.isDigit || ['-', ':', 'T', 't', ' ', '.', 'Z', 'z', '+'].contains c

/-- The date or time that a text spells; blanks at its end do not count. -/
def moment? (t : List Char) : Option Value := do
  let trimmed := (t.reverse.dropWhile (· == ' ')).reverse
  let upper (c : Char) : Char :=
    if c = 'z' then 'Z' else if c = 't' ∨ c = ' ' then 'T' else c
  let b := trimmed.flatMap fun c => encodeChar (upper c)
  some (.moment (← (dateTime? b <|> localTime? b)))

/-! ## Reading -/

/-- The characters that satisfy a condition, and what follows them. -/
def takeRun (keep : Char → Bool) (t : List Char) : List Char × List Char :=
  (t.takeWhile keep, t.dropWhile keep)

/-- A number with a base given by a letter after a zero. -/
def based? (base : Nat) (t : List Char) : Option (Value × List Char) := do
  let (ds, rest) := takeRun (fun c => c == '_' || (digitOf? base c).isSome) t
  let n := digitsValue base (← digits? base ds)
  some (← integer? false n, rest)

/-- Whether a character can belong to a floating-point number. -/
def isFloatChar (c : Char) : Bool := c.isDigit || ['_', '.', '-', '+', 'e', 'E'].contains c

/-- A decimal number, whose sign stands before `t`. -/
def decimal? (negative : Bool) (t : List Char) : Option (Value × List Char) :=
  let (ds, rest) := takeRun (fun c => c == '_' || c.isDigit) t
  match rest with
  | mark :: _ =>
    if mark = '.' ∨ mark = 'e' ∨ mark = 'E' then do
      let (token, rest) := takeRun isFloatChar t
      some (← float? (if negative then '-' :: token else token), rest)
    else do some (← integer? negative (digitsValue 10 (← decimalDigits? ds)), rest)
  | [] => do some (← integer? negative (digitsValue 10 (← decimalDigits? ds)), rest)

/-- A number that begins with a sign: an infinity, no number at all, or a decimal number. -/
def signed? (negative : Bool) : List Char → Option (Value × List Char)
  | 'i' :: 'n' :: 'f' :: rest => some (.decimal (.infinite negative), rest)
  | 'n' :: 'a' :: 'n' :: rest => some (.decimal .notANumber, rest)
  | t => decimal? negative t

/-- A number, date or time that begins with a digit. -/
def unsigned? (t : List Char) : Option (Value × List Char) :=
  match t with
  | '0' :: 'x' :: rest => based? 16 rest
  | '0' :: 'o' :: rest => based? 8 rest
  | '0' :: 'b' :: rest => based? 2 rest
  | _ =>
    match t.dropWhile Char.isDigit with
    | mark :: _ =>
      if mark = '-' ∨ mark = ':' then do
        let (token, rest) := takeRun isMomentChar t
        some (← moment? token, rest)
      else decimal? false t
    | [] => decimal? false t

end StackMachine.Toml
