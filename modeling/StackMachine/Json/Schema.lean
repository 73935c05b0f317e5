import StackMachine.Json.Datum

/-!
# Shapes of JSON values

A `Schema` says which values a place in a document can hold. Null fits everywhere, for it leaves the
place as it is, and so does a field that the schema does not name.
-/

namespace StackMachine.Json

open Text

/-- Which values a place can hold. -/
inductive Schema where
  | any
  | flag
  | text
  /-- A whole number between two bounds, the upper one excluded. -/
  | whole (low high : Int)
  /-- A name that is a text or a signed word. -/
  | token
  | list (item : Schema)
  | record (fields : List (String × Schema))
  /-- A flag, or a record that says more. -/
  | flagOr (fields : List (String × Schema))
  deriving Inhabited

namespace Schema

/-- A signed word of 32 bits. -/
def int32 : Schema := .whole (-(Nat.pow 2 31)) (Nat.pow 2 31)

/-- An unsigned word of 32 bits. -/
def word32 : Schema := .whole 0 (Nat.pow 2 32)

/-- The schema of a field. A field without one can hold anything. -/
def field (fields : List (String × Schema)) (name : Bytes) : Schema :=
  match fields.find? fun f => sameName (utf8 f.1) name with
  | some f => f.2
  | none => .any

mutual

/-- Whether a value has the shape that a schema asks for. -/
def admits : Schema → Datum → Bool
  | _, .null => true
  | .any, _ => true
  | .flag, .bool _ => true
  | .text, .string _ => true
  | .whole low high, .number n places => ((Datum.number n places).within? low high).isSome
  | .token, .string _ => true
  | .token, .number n places => (Datum.number n places).int32?.isSome
  | .list item, .array items => admitsAll item items
  | .record fields, .object entries => admitsEntries fields entries
  | .flagOr _, .bool _ => true
  | .flagOr fields, .object entries => admitsEntries fields entries
  | _, _ => false

/-- Whether all items of an array have a shape. -/
def admitsAll : Schema → List Datum → Bool
  | _, [] => true
  | item, d :: rest => admits item d && admitsAll item rest

/-- Whether the entries of an object have the shapes of the fields that they name. -/
def admitsEntries : List (String × Schema) → List (Bytes × Datum) → Bool
  | _, [] => true
  | fields, (name, d) :: rest => admits (field fields name) d && admitsEntries fields rest

end

end Schema

end StackMachine.Json
