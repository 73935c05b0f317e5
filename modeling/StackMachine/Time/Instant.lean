import StackMachine.Text.Bytes

/-!
# Instants

A point in time is a number of whole seconds since the start of 1970 (UTC), rounded down, and the
nanoseconds since that second. The first instant of the year 1 stands for "no time given".

Dates follow the proleptic Gregorian calendar, without leap seconds.
-/

namespace StackMachine

open Text

/-- A point in time. -/
structure Instant where
  /-- Whole seconds since the start of 1970. -/
  sec : Int64
  /-- Nanoseconds since that second. -/
  nsec : Nat
  deriving DecidableEq, Repr

namespace Instant

/-- Nanoseconds in a second. -/
def nanosPerSecond : Nat := 1000000000

/-- The start of the year 1, which stands for a missing time. -/
def zero : Instant := ⟨-62135596800, 0⟩

/-- The instant some seconds and nanoseconds after the start of 1970. Nanoseconds of any size and
sign are carried over into the seconds. -/
def ofUnix (sec : Int64) (nsec : Int) : Instant :=
  ⟨sec + Int64.ofInt (nsec / nanosPerSecond), (nsec % nanosPerSecond).toNat⟩

/-- The instant some nanoseconds after the start of 1970. -/
def ofNanos (ns : Int64) : Instant := ofUnix 0 ns.toInt

/-- Nanoseconds from the start of 1970 to an instant. They are counted in a word, which holds some
292 years; beyond that the count is off. -/
def toNanos (t : Instant) : Int64 := t.sec * Int64.ofNat nanosPerSecond + Int64.ofNat t.nsec

/-! ## The calendar -/

/-- A calendar date and a time of day. -/
structure Civil where
  year : Int
  /-- From 1. -/
  month : Nat
  /-- From 1. -/
  day : Nat
  hour : Nat
  minute : Nat
  second : Nat
  deriving DecidableEq, Repr

/-- Whether a year has a 29th of February. -/
def isLeap (year : Int) : Bool := year % 4 == 0 && (year % 100 != 0 || year % 400 == 0)

/-- How many days a month has. -/
def daysIn (year : Int) (month : Nat) : Nat :=
  match month with
  | 2 => if isLeap year then 29 else 28
  | 4 | 6 | 9 | 11 => 30
  | _ => 31

/-- Days from the start of the year 1 to the start of a year. -/
def daysBeforeYear (year : Int) : Int :=
  let y := year - 1
  365 * y + y / 4 - y / 100 + y / 400

/-- Days from the start of a year to the start of one of its months. -/
def daysBeforeMonth (year : Int) (month : Nat) : Nat :=
  (List.range (month - 1)).foldl (fun days m => days + daysIn year (m + 1)) 0

/-- Days from the start of the year 1 to the start of 1970. -/
def daysBeforeEpoch : Int := 719162

/-- Seconds from the start of 1970 to a date and time. -/
def Civil.toUnix (c : Civil) : Int :=
  let days := daysBeforeYear c.year + daysBeforeMonth c.year c.month + (c.day - 1) - daysBeforeEpoch
  days * 86400 + c.hour * 3600 + c.minute * 60 + c.second

/-- The month that a day of a year lies in, looking from `month` on, and the day of that month;
days are counted from zero. -/
def monthOfDay (year : Int) : (fuel month day : Nat) → Nat × Nat
  | 0, month, day => (month, day)
  | fuel + 1, month, day =>
    if day < daysIn year month then (month, day)
    else monthOfDay year fuel (month + 1) (day - daysIn year month)

/-- The date and time of an instant, in UTC. -/
def toCivil (t : Instant) : Civil :=
  let secs := t.sec.toInt
  let days := secs / 86400 + daysBeforeEpoch
  let rest := (secs % 86400).toNat
  -- 400 years always have the same number of days.
  let cycle := days / 146097
  let inCycle := (days % 146097).toNat
  let guess := inCycle / 366
  let years := if daysBeforeYear (guess + 2) ≤ inCycle then guess + 1 else guess
  let year := cycle * 400 + years + 1
  let (month, day) := monthOfDay year 11 1 (inCycle - (daysBeforeYear (years + 1)).toNat)
  ⟨year, month, day + 1, rest / 3600, rest / 60 % 60, rest % 60⟩

/-! ## Time zones -/

/-- A time zone: by how many seconds its clocks are ahead of UTC, at each second since the start of
1970. -/
structure Zone where
  offset : Int64 → Int32

/-- The zone whose clocks show UTC. -/
def Zone.utc : Zone := ⟨fun _ => 0⟩

/-- By how many seconds the clocks of a zone are ahead of UTC at an instant. -/
def offset (t : Instant) (zone : Zone) : Int32 := zone.offset t.sec

/-- The date and time that the clocks of a zone show at an instant. -/
def toLocal (t : Instant) (zone : Zone) : Civil :=
  { t with sec := t.sec + (t.offset zone).toInt64 }.toCivil

end Instant

end StackMachine
