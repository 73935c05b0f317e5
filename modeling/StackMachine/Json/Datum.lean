import StackMachine.Text.Case

/-!
# JSON values

The values of JSON documents. Numbers are kept in decimal, so that none is rounded. Records are read
leniently: a field that is missing, null or of another type has the zero value of its type, its name
may be written in another case, and what is said later goes over what was said before.
-/

namespace StackMachine.Json

open Text

/-- A JSON value. -/
inductive Datum where
  | null
  | bool (b : Bool)
  /-- The number `mantissa / 10 ^ places`. -/
  | number (mantissa : Int) (places : Nat)
  | string (text : Bytes)
  | array (items : List Datum)
  | object (fields : List (Bytes × Datum))
  deriving Inhabited

namespace Datum

/-- A whole number. -/
def ofNat (n : Nat) : Datum := .number n 0

/-- A text as a string. A stray byte becomes the replacement character. -/
def ofText (t : Bytes) : Datum :=
  .string ((symbols t).flatMap fun
    | .char c => encodeChar c
    | .stray _ => encodeChar replacement)

/-- An object with named fields. -/
def record (fields : List (String × Datum)) : Datum :=
  .object (fields.map fun f => (utf8 f.1, f.2))

/-- Whether a value is null. -/
def isNull : Datum → Bool
  | .null => true
  | _ => false

/-! ## Reading -/

/-- A string. -/
def text? : Datum → Option Bytes
  | .string t => some t
  | _ => none

/-- A whole number between two bounds, the upper one excluded. -/
def within? (low high : Int) : Datum → Option Int
  | .number v 0 => if low ≤ v ∧ v < high then some v else none
  | _ => none

/-- A signed word of 32 bits. -/
def int32? : Datum → Option Int := within? (-(Nat.pow 2 31)) (Nat.pow 2 31)

/-- An unsigned word of 32 bits. -/
def word32? (v : Datum) : Option Nat := (v.within? 0 (Nat.pow 2 32)).map Int.toNat

/-- The items of an array. -/
def items? : Datum → Option (List Datum)
  | .array items => some items
  | _ => none

end Datum

/-- The fields of a record. -/
abbrev Fields := List (Bytes × Datum)

namespace Datum

/-- The fields of a record; any other value has none. -/
def fields : Datum → Fields
  | .object fields => fields
  | _ => []

end Datum

namespace Fields

/-- The values that a field is given, one after the other. -/
def values (fields : Fields) (name : String) : List Datum :=
  (fields.filter fun f => sameName f.1 (utf8 name)).map (·.2)

/-- The value of a field: the last that is not null. -/
def get? (fields : Fields) (name : String) : Option Datum :=
  ((fields.values name).filter (!·.isNull)).getLast?

/-- Whether a field has a value in the end. A null takes an earlier value away. -/
def has (fields : Fields) (name : String) : Bool :=
  match (fields.values name).getLast? with
  | some v => !v.isNull
  | none => false

/-- The text in a field. -/
def text (fields : Fields) (name : String) : Bytes :=
  ((fields.get? name).bind Datum.text?).getD []

/-- The unsigned word in a field. -/
def word32 (fields : Fields) (name : String) : Nat :=
  ((fields.get? name).bind Datum.word32?).getD 0

/-- The record in a field. One that is given in several parts has the fields of all of them. -/
def record (fields : Fields) (name : String) : Fields :=
  (fields.values name).flatMap Datum.fields

/-- The items in a field. Of several arrays the last counts. -/
def items (fields : Fields) (name : String) : List Datum :=
  ((fields.values name).getLast?.bind Datum.items?).getD []

end Fields

end StackMachine.Json
