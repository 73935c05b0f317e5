import StackMachine.Cbor.Item

/-!
# Reading data items

`read` turns bytes into the one data item they must hold. It accepts every well-formed way of
writing an item: heads longer than needed, and strings, arrays and maps of unknown length. What it
refuses, it refuses at the first offending byte.
-/

namespace StackMachine.Cbor

open Text

/-- Why bytes are not one well-formed data item. -/
inductive ReadError where
  /-- There are no bytes. -/
  | nothing
  /-- The bytes end inside an item. -/
  | truncated
  /-- A head that no item has, or a break where none may stand. -/
  | malformed
  /-- Arrays, maps and tags lie too deep inside one another. -/
  | tooDeep
  /-- A string is longer than any text can be. -/
  | tooLong
  /-- An array has more elements than it may have. -/
  | tooManyElements
  /-- A map has more entries than it may have. -/
  | tooManyEntries
  /-- Bytes follow the item. -/
  | trailing
  deriving DecidableEq, Repr

/-- How deep arrays and maps may lie inside one another. -/
def maxDepth : Nat := 32

/-- How many elements an array, and how many entries a map may have. -/
def maxElements : Nat := 131072

/-- The head of an item: its major type, its additional information, and the number it carries. -/
structure Head where
  major : Nat
  info : Nat
  value : Nat
  deriving DecidableEq, Repr

/-- The break that ends an item of unknown length. -/
def breakByte : UInt8 := 0xFF

/-- Reads the number that follows the first byte of a head in `count` bytes. -/
def readTail (count : Nat) (rest : Bytes) : Except ReadError (Nat × Bytes) :=
  let tail := rest.take count
  if tail.length < count then .error .truncated else .ok (ofBigEndian tail, rest.drop count)

/-- Reads a head. -/
def readHead : Bytes → Except ReadError (Head × Bytes)
  | [] => .error .truncated
  | first :: rest => do
    let major := first.toNat / 32
    let info := first.toNat % 32
    if info < 24 then .ok (⟨major, info, info⟩, rest)
    else if info < 28 then
      let (value, rest) ← readTail (Nat.pow 2 (info - 24)) rest
      if info = 24 ∧ major = 7 ∧ value < 32 then .error .malformed
      else .ok (⟨major, info, value⟩, rest)
    else if info = 31 ∧ 2 ≤ major ∧ major ≤ 5 then .ok (⟨major, info, info⟩, rest)
    else .error .malformed

/-- Takes `length` bytes off the front. -/
def takeBytes (length : Nat) (rest : Bytes) : Except ReadError (Bytes × Bytes) :=
  if Nat.pow 2 63 ≤ length then .error .tooLong
  else
    let piece := rest.take length
    if piece.length < length then .error .truncated else .ok (piece, rest.drop length)

/-- Reads the pieces of a string of unknown length up to its break. Each piece is a string of the
same type and of known length. -/
def readPieces (major : Nat) : (fuel : Nat) → Bytes → Except ReadError (List Bytes × Bytes)
  | 0, _ => .error .truncated
  | _ + 1, [] => .error .truncated
  | fuel + 1, first :: rest =>
    if first = breakByte then .ok ([], rest)
    else if first.toNat / 32 ≠ major ∨ first.toNat % 32 = 31 then .error .malformed
    else do
      let (head, rest) ← readHead (first :: rest)
      let (piece, rest) ← takeBytes head.value rest
      let (pieces, rest) ← readPieces major fuel rest
      .ok (piece :: pieces, rest)

/-- The item of major type 7 that a head spells by itself. -/
def primitive (h : Head) : Item :=
  match h.info with
  | 20 => .bool false
  | 21 => .bool true
  | 22 => .null
  | 23 => .undefined
  | 25 => .real .half h.value
  | 26 => .real .single h.value
  | 27 => .real .double h.value
  | _ => .simple h.value

/-- The depth inside another array or map, if it is not too deep. -/
def deeper (depth : Nat) : Except ReadError Nat :=
  if depth < maxDepth then .ok (depth + 1) else .error .tooDeep

/-- A number of elements or entries that is within the limit. -/
def within (excess : ReadError) (count : Nat) : Except ReadError Nat :=
  if count ≤ maxElements then .ok count else .error excess

mutual

/-- Reads one item that lies `depth` levels deep. -/
def readItem : (fuel depth : Nat) → Bytes → Except ReadError (Item × Bytes)
  | 0, _, _ => .error .truncated
  | fuel + 1, depth, t => do
    let (h, rest) ← readHead t
    match h.major with
    | 0 => .ok (.unsigned h.value, rest)
    | 1 => .ok (.negative h.value, rest)
    | 2 =>
      if h.info = 31 then
        let (pieces, rest) ← readPieces 2 fuel rest
        .ok (.bytes pieces.flatten, rest)
      else
        let (b, rest) ← takeBytes h.value rest
        .ok (.bytes b, rest)
    | 3 =>
      if h.info = 31 then
        let (pieces, rest) ← readPieces 3 fuel rest
        .ok (.text pieces, rest)
      else
        let (b, rest) ← takeBytes h.value rest
        .ok (.text [b], rest)
    | 4 =>
      let depth ← deeper depth
      if h.info = 31 then
        let (items, rest) ← readUntilBreak fuel depth maxElements rest
        .ok (.array items, rest)
      else
        let count ← within .tooManyElements h.value
        let (items, rest) ← readItems fuel depth count rest
        .ok (.array items, rest)
    | 5 =>
      let depth ← deeper depth
      if h.info = 31 then
        let (entries, rest) ← readEntriesUntilBreak fuel depth maxElements rest
        .ok (.map entries, rest)
      else
        let count ← within .tooManyEntries h.value
        let (entries, rest) ← readEntries fuel depth count rest
        .ok (.map entries, rest)
    | 6 =>
      let (content, rest) ← readContent fuel depth rest
      .ok (.tag h.value content, rest)
    | _ => .ok (primitive h, rest)

/-- Reads what a tag stands before. A tag directly inside a tag lies one level deeper. -/
def readContent : (fuel depth : Nat) → Bytes → Except ReadError (Item × Bytes)
  | 0, _, _ => .error .truncated
  | _ + 1, _, [] => .error .truncated
  | fuel + 1, depth, first :: rest =>
    if first.toNat / 32 = 6 then do
      let (h, rest) ← readHead (first :: rest)
      let depth ← deeper depth
      let (content, rest) ← readContent fuel depth rest
      .ok (.tag h.value content, rest)
    else readItem fuel depth (first :: rest)

/-- Reads a given number of items. -/
def readItems : (fuel depth count : Nat) → Bytes → Except ReadError (List Item × Bytes)
  | _, _, 0, t => .ok ([], t)
  | 0, _, _ + 1, _ => .error .truncated
  | fuel + 1, depth, count + 1, t => do
    let (item, t) ← readItem fuel depth t
    let (items, t) ← readItems fuel depth count t
    .ok (item :: items, t)

/-- Reads a given number of keys and values. -/
def readEntries : (fuel depth count : Nat) → Bytes → Except ReadError (List (Item × Item) × Bytes)
  | _, _, 0, t => .ok ([], t)
  | 0, _, _ + 1, _ => .error .truncated
  | fuel + 1, depth, count + 1, t => do
    let (key, t) ← readItem fuel depth t
    let (value, t) ← readItem fuel depth t
    let (entries, t) ← readEntries fuel depth count t
    .ok ((key, value) :: entries, t)

/-- Reads items up to a break, at most `room` of them. -/
def readUntilBreak : (fuel depth room : Nat) → Bytes → Except ReadError (List Item × Bytes)
  | 0, _, _, _ => .error .truncated
  | _ + 1, _, _, [] => .error .truncated
  | fuel + 1, depth, room, first :: rest =>
    if first = breakByte then .ok ([], rest)
    else do
      let (item, t) ← readItem fuel depth (first :: rest)
      if room = 0 then .error .tooManyElements
      else
        let (items, t) ← readUntilBreak fuel depth (room - 1) t
        .ok (item :: items, t)

/-- Reads keys and values up to a break, at most `room` entries. -/
def readEntriesUntilBreak :
    (fuel depth room : Nat) → Bytes → Except ReadError (List (Item × Item) × Bytes)
  | 0, _, _, _ => .error .truncated
  | _ + 1, _, _, [] => .error .truncated
  | fuel + 1, depth, room, first :: rest =>
    if first = breakByte then .ok ([], rest)
    else do
      let (key, t) ← readItem fuel depth (first :: rest)
      let (value, t) ← readItem fuel depth t
      if room = 0 then .error .tooManyEntries
      else
        let (entries, t) ← readEntriesUntilBreak fuel depth (room - 1) t
        .ok ((key, value) :: entries, t)

end

/-- The data item that bytes hold. Every call of the readers above either consumes a byte or is
followed by one that does, so twice the number of bytes is fuel enough. -/
def read (t : Bytes) : Except ReadError Item :=
  match t with
  | [] => .error .nothing
  | _ => do
    let (item, rest) ← readItem (2 * t.length + 2) 0 t
    if rest = [] then .ok item else .error .trailing

end StackMachine.Cbor
