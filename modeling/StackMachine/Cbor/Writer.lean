import StackMachine.Cbor.Item

/-!
# Writing data items

Items are written in canonical form: every head as short as its number allows, lengths up front, and
the entries of a record in the order of their keys, shorter keys first and equally long keys by
their bytes. Texts are written as they are, UTF-8 or not.
-/

namespace StackMachine.Cbor

open Text

/-- The head of an item: its major type and its number in as few bytes as possible. -/
def head (major n : Nat) : Bytes :=
  let first (low : Nat) : UInt8 := (major * 32 + low).toUInt8
  if n < 24 then [first n]
  else if n < Nat.pow 2 8 then first 24 :: bigEndian 1 n
  else if n < Nat.pow 2 16 then first 25 :: bigEndian 2 n
  else if n < Nat.pow 2 32 then first 26 :: bigEndian 4 n
  else first 27 :: bigEndian 8 n

mutual

/-- The bytes of an item. -/
def Item.write : Item → Bytes
  | .unsigned n => head 0 n
  | .negative n => head 1 n
  | .bytes b => head 2 b.length ++ b
  | .text pieces => head 3 pieces.flatten.length ++ pieces.flatten
  | .array items => head 4 items.length ++ writeAll items
  | .map entries => head 5 entries.length ++ writeEntries entries
  | .tag number content => head 6 number ++ content.write
  | .bool b => [if b then 0xF5 else 0xF4]
  | .null => [0xF6]
  | .undefined => [0xF7]
  | .simple n => head 7 n
  | .real .half bits => 0xF9 :: bigEndian 2 bits
  | .real .single bits => 0xFA :: bigEndian 4 bits
  | .real .double bits => 0xFB :: bigEndian 8 bits

/-- The bytes of items, one after the other. -/
def writeAll : List Item → Bytes
  | [] => []
  | item :: rest => item.write ++ writeAll rest

/-- The bytes of keys and values, one entry after the other. -/
def writeEntries : List (Item × Item) → Bytes
  | [] => []
  | (key, value) :: rest => key.write ++ value.write ++ writeEntries rest

end

/-- The order of keys in a record: shorter ones first, then by their bytes. -/
def keyBefore (a b : Bytes) : Bool :=
  a.length < b.length || (a.length == b.length && before a b)

/-- A field of a record, or nothing for a field that is left out. -/
abbrev FieldItem := Bytes × Option Item

/-- The record of the fields that are present, in canonical order. -/
def record (fields : List FieldItem) : Item :=
  let present := fields.filterMap fun (name, item) => item.map fun i => (name, i)
  let sorted := present.mergeSort fun a b => !keyBefore b.1 a.1
  .map (sorted.map fun (name, item) => (.ofText name, item))

end StackMachine.Cbor
