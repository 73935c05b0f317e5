import StackMachine.History.Row
import StackMachine.Text.Numeral

/-!
# Runs as a file

On disk a store is a heading followed by the fields of its runs. A field is written as its length in
decimal, a colon and its bytes, so that it may hold anything.
-/

namespace StackMachine.History

open Text

namespace Archive

/-- What every archive begins with. -/
def heading : Bytes := utf8 "stack machine run history\n"

/-- A field as it stands in an archive. -/
def field (t : Bytes) : Bytes := decimal t.length ++ ascii ':' :: t

/-- A value of a row as a field. -/
def ofCell : Cell → Bytes
  | .text t => t
  | .integer n => word n

/-- The fields of a run: the values of its row, in order. -/
def fields (r : Run) : List Bytes := (Row.insertedValues r).map ofCell

/-- The archive of a list of runs. -/
def write (log : List Run) : Bytes := heading ++ log.flatMap fun r => (fields r).flatMap field

/-- The first field of a text, and what follows it. -/
def firstField? (t : Bytes) : Option (Bytes × Bytes) := do
  let digits := t.takeWhile fun b => (Numeral.digit? b).isSome
  let size ← (Numeral.magnitude digits).toOption
  match t.drop digits.length with
  | 58 :: rest => if size ≤ rest.length then some (rest.take size, rest.drop size) else none
  | _ => none

/-- A text cut into fields. Every field takes at least a byte, so the length of the text is fuel
enough. -/
def readFields? : (fuel : Nat) → Bytes → Option (List Bytes)
  | _, [] => some []
  | 0, _ :: _ => none
  | fuel + 1, t => do
    let (f, rest) ← firstField? t
    let more ← readFields? fuel rest
    some (f :: more)

/-- A number among the fields. -/
def number? (t : Bytes) : Option Int64 := (Numeral.read t).toOption

/-- The runs that fields describe. -/
def ofFields? : List Bytes → Option (List Run)
  | [] => some []
  | id :: createdAt :: programHash :: program :: result :: output :: faultKind :: faultMessage
      :: steps :: rest => do
    let createdAt ← number? createdAt
    let result ← number? result
    let steps ← number? steps
    let more ← ofFields? rest
    some ({ id, createdAt, programHash, program, result, output, faultKind, faultMessage, steps }
      :: more)
  | _ => none

/-- The runs of an archive, or nothing when a text is none. -/
def read? (t : Bytes) : Option (List Run) := do
  let body ← dropPrefix? heading t
  let fs ← readFields? body.length body
  ofFields? fs

end Archive

end StackMachine.History
