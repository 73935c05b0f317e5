import StackMachine.Number.Dyadic
import StackMachine.Time.Rfc3339

/-!
# TOML values

The values of a TOML document. Tables keep their entries in the order in which they were defined.
-/

namespace StackMachine.Toml

open Text

/-- A floating-point value. -/
inductive Decimal where
  | finite (negative : Bool) (magnitude : Dyadic)
  | infinite (negative : Bool)
  | notANumber
  deriving DecidableEq, Repr

/-- A floating-point value with six places. -/
def Decimal.toBytes : Decimal → Bytes
  | finite negative m => (if negative then utf8 "-" else []) ++ m.fixed 6
  | infinite negative => if negative then utf8 "-Inf" else utf8 "+Inf"
  | notANumber => utf8 "NaN"

/-- A date, a time of day, or both, as they are written. A missing date is the first day of the year
zero and a missing time is midnight. -/
structure Moment where
  civil : Instant.Civil
  nanos : Nat
  /-- Minutes east of UTC; zero when no offset is written. -/
  offset : Int
  deriving DecidableEq, Repr

/-- The text of a moment, unless its offset takes a day or more. -/
def Moment.toBytes? (m : Moment) : Option Bytes :=
  if m.offset.natAbs < 24 * 60 then some (Rfc3339.write m.civil m.nanos (60 * m.offset)) else none

/-- A value of a TOML document. -/
inductive Value where
  | text (t : Bytes)
  | integer (n : Int64)
  | decimal (d : Decimal)
  | boolean (b : Bool)
  | moment (m : Moment)
  | array (items : List Value)
  | table (entries : List (Bytes × Value))
  /-- Tables under one heading that may be repeated; there is at least one. -/
  | tables (items : List (List (Bytes × Value)))
  deriving Repr

/-- The entries of a table, in the order in which they were defined. -/
abbrev Table := List (Bytes × Value)

/-- A table with one more entry at its end, or with a new value for one it has. -/
def Table.insert (t : Table) (key : Bytes) (v : Value) : Table :=
  if (t.lookup key).isSome then t.map fun (k, w) => if k = key then (k, v) else (k, w)
  else t ++ [(key, v)]

end StackMachine.Toml
