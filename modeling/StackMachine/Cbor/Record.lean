import StackMachine.Cbor.Reader
import StackMachine.Time.Rfc3339
import StackMachine.Number.Dyadic
import StackMachine.Text.Case

/-!
# Reading records

A message is a record: a map whose text keys name fields. A `Reading β` says how an item becomes a
value of `β`, and `record` assembles the readings of the fields. The rules are lenient where nothing
is lost: unknown fields are skipped unread, a repeated field counts once, a name may differ in case,
tags around a value are ignored, and null leaves a field as it was. A value of the wrong type is an
error that names the outermost field it was found in.
-/

namespace StackMachine.Cbor

open Text

/-- Why bytes do not spell a message. -/
inductive DecodeError where
  /-- The bytes are not one well-formed item. -/
  | read (e : ReadError)
  /-- A text is not UTF-8. -/
  | notUtf8
  /-- A tag whose content it cannot have, or a time that cannot be read. -/
  | content
  /-- An item of the wrong type: what was found, in which field, and what was wanted. -/
  | mismatch (found : String) (field : Option String) (wanted : String)
  deriving DecidableEq, Repr

/-- An error inside a field is reported for the field. -/
def DecodeError.inField (field : String) : DecodeError → DecodeError
  | mismatch found _ wanted => mismatch found (some field) wanted
  | e => e

/-- Whether a tag may stand before an item: tag 0 before a text, tag 1 before a number, tags 2 and
3 before a byte string. -/
def tagAdmits (number : Nat) (content : Item) : Bool :=
  match number, content with
  | 0, .text _ => true
  | 1, .unsigned _ => true
  | 1, .negative _ => true
  | 1, .real _ _ => true
  | 2, .bytes _ => true
  | 3, .bytes _ => true
  | n, _ => 3 < n

/-- An item without the tags around it. Tags 2 and 3 make a number of a byte string. -/
inductive Bare where
  | item (i : Item)
  | bignum (n : Int)

/-- Takes the tags off an item. -/
def bare : Item → Except DecodeError Bare
  | .tag number content =>
    if tagAdmits number content then
      match number, content with
      | 2, .bytes b => .ok (.bignum (ofBigEndian b))
      | 3, .bytes b => .ok (.bignum (-1 - ofBigEndian b))
      | _, content => bare content
    else .error .content
  | i => .ok (.item i)

/-- An item without the tags in front that only announce what follows as CBOR. -/
def unannounced : Item → Item
  | .tag 55799 content => unannounced content
  | i => i

/-- An item without any of the tags around it. -/
def untagged : Item → Item
  | .tag _ content => untagged content
  | i => i

/-- Takes the tags off an item and leaves byte strings alone. Of the tags, only the first that says
something is held to its content. -/
def beyondTags (i : Item) : Except DecodeError Item :=
  match unannounced i with
  | .tag number content =>
    if tagAdmits number content then .ok (untagged content) else .error .content
  | i => .ok i

/-- Whether every piece of a text is UTF-8. -/
def piecesUtf8 (pieces : List Bytes) : Bool := pieces.all isUtf8

/-- The text that pieces spell. -/
def textOf (pieces : List Bytes) : Except DecodeError Bytes :=
  if piecesUtf8 pieces then .ok pieces.flatten else .error .notUtf8

/-- How an item becomes a value. -/
structure Reading (β : Type) where
  /-- What messages call the type of the value. -/
  typeName : String
  read : Item → Except DecodeError β

namespace Reading

/-- The error of an item of the wrong type. A text is checked before it is found to be wrong. -/
def mismatch {β : Type} (typeName : String) : Bare → Except DecodeError β
  | .item (.text pieces) => do
    let _ ← textOf pieces
    .error (.mismatch (Item.text pieces).kindName none typeName)
  | .item i => .error (.mismatch i.kindName none typeName)
  | .bignum _ => .error (.mismatch "tag" none typeName)

/-- A number that fits into 64 bits, or the error of an item that does not hold one. -/
def word? (n : Int) (e : Except DecodeError Int64) : Except DecodeError Int64 :=
  if -Nat.pow 2 63 ≤ n ∧ n < Nat.pow 2 63 then .ok (Int64.ofInt n) else e

/-- A signed 64-bit number. Simple values count as the numbers they carry. -/
def word (typeName : String) : Reading Int64 where
  typeName := typeName
  read i := do
    let b ← bare i
    match b with
    | .bignum n => word? n (mismatch typeName b)
    | .item (.unsigned n) => word? n (mismatch typeName b)
    | .item (.negative n) => word? (-1 - n) (mismatch typeName b)
    | .item (.simple n) => word? n (mismatch typeName b)
    | .item .null => .ok 0
    | .item .undefined => .ok 0
    | _ => mismatch typeName b

/-- A text. -/
def text : Reading Bytes where
  typeName := "string"
  read i := do
    let b ← bare i
    match b with
    | .item (.text pieces) => textOf pieces
    | .item .null => .ok []
    | .item .undefined => .ok []
    | _ => mismatch "string" b

/-- A truth value. -/
def bool : Reading Bool where
  typeName := "bool"
  read i := do
    let b ← bare i
    match b with
    | .item (.bool v) => .ok v
    | .item .null => .ok false
    | .item .undefined => .ok false
    | _ => mismatch "bool" b

/-- A list, or nothing in place of one. -/
def list {β : Type} (element : Reading β) : Reading (Option (List β)) where
  typeName := "[]" ++ element.typeName
  read i := do
    let b ← bare i
    match b with
    | .item (.array items) => some <$> items.mapM element.read
    | .item .null => .ok none
    | .item .undefined => .ok none
    | _ => mismatch ("[]" ++ element.typeName) b

/-- A value that may be missing. A tagged null is a value, the zero of its type. -/
def optional {β : Type} (value : Reading β) : Reading (Option β) where
  typeName := value.typeName
  read i := if i.isNull then .ok none else some <$> value.read i

end Reading

/-! ## Times -/

/-- The instant a number of seconds after the start of 1970. Seconds beyond 64 bits count as the
least number there is; what is not a number gives no time. -/
def instantOfReal : Real → Instant
  | .nonFinite => .zero
  | .finite negative mantissa exponent =>
    let places := (-exponent).toNat
    let whole := mantissa * Nat.pow 2 exponent.toNat / Nat.pow 2 places
    let part := if exponent < 0 then mantissa % Nat.pow 2 places else 0
    let nanos := (Dyadic.nearest (part * 1000000000) (Nat.pow 2 places)).floor
    let signed (n : Nat) : Int := if negative then -n else n
    let seconds := signed whole
    Instant.ofUnix
      (if -Nat.pow 2 63 ≤ seconds ∧
        seconds < Nat.pow 2 63 then Int64.ofInt seconds else Int64.minValue)
      (signed nanos)

/-- Whether a key can be looked up in a table, so that a map with it can be read. -/
def isHashable : Item → Bool
  | .bytes _ | .array _ | .map _ => false
  | .negative n => n < Nat.pow 2 63
  | .tag 2 _ => false
  | .tag 3 _ => false
  | .tag _ content => isHashable content
  | _ => true

mutual

/-- The first error met when all of an item is read, whatever it holds. -/
def scan : Item → Except DecodeError Unit
  | .text pieces => do let _ ← textOf pieces
  | .array items => scanAll items
  | .map entries => scanEntries entries
  | .tag number content =>
    if tagAdmits number content then
      match number, content with
      | 0, .text pieces => do
        let t ← textOf pieces
        if (Rfc3339.parse t).isSome then .ok () else .error .content
      | 1, .negative n =>
        if n < Nat.pow 2 63 then .ok ()
        else .error (.mismatch (Item.negative n).kindName none "time.Time")
      | _, content => scan content
    else .error .content
  | _ => .ok ()

/-- The first error met in a list of items. -/
def scanAll : List Item → Except DecodeError Unit
  | [] => .ok ()
  | item :: rest => do scan item; scanAll rest

/-- The first error met in the entries of a map. -/
def scanEntries : List (Item × Item) → Except DecodeError Unit
  | [] => .ok ()
  | (key, value) :: rest => do
    scan key
    if isHashable key then scan value else .error .content
    scanEntries rest

end

/-- A time: a number of seconds since the start of 1970, or a text that names it. -/
def Reading.instant : Reading Instant where
  typeName := "time.Time"
  read i := do
    let i ← beyondTags i
    match i with
    | .null | .undefined => .ok .zero
    | .unsigned n => .ok (.ofUnix (Int64.ofNat n) 0)
    | .negative n =>
      if n < Nat.pow 2 63 then .ok (.ofUnix (Int64.ofInt (-1 - n)) 0)
      else .error (.mismatch i.kindName none "time.Time")
    | .real p bits => .ok (instantOfReal (.ofBits p bits))
    | .text pieces => do
      let t ← textOf pieces
      match Rfc3339.parse t with
      | some instant => .ok instant
      | none => .error .content
    | _ => do
      scan i
      .error (.mismatch i.kindName none "time.Time")

/-! ## Records -/

/-- A field of a record: its name, and how a value is put into the record. -/
structure Field (β : Type) where
  name : String
  set : Item → β → Except DecodeError β

/-- A field by its reading and the way a value is put into the record. -/
def Field.of {β γ : Type} (name : String) (value : Reading γ) (put : γ → β → β) : Field β where
  name := name
  set i b := (value.read i).map fun v => put v b

/-- The field that a key names: the one of exactly this name, else the first whose name differs in
case of ASCII letters only. -/
def findField {β : Type} (fields : List (Field β)) (key : Bytes) : Option (Field β) :=
  (fields.find? fun f => utf8 f.name == key)
    <|> (fields.find? fun f => lowerAscii (utf8 f.name) == lowerAscii key)

/-- Reads the entries of a record into it. `seen` holds the fields that have been read. -/
def readFields {β : Type} (typeName : String) (fields : List (Field β)) :
    (seen : List String) → β → List (Item × Item) → Except DecodeError β
  | _, b, [] => .ok b
  | seen, b, (key, value) :: rest =>
    match key with
    | .text pieces => do
      let name ← textOf pieces
      match findField fields name with
      | none => readFields typeName fields seen b rest
      | some f =>
        if seen.contains f.name then readFields typeName fields seen b rest
        else do
          let b ← (f.set value b).mapError (·.inField (typeName ++ "." ++ f.name))
          readFields typeName fields (f.name :: seen) b rest
    | .unsigned _ => readFields typeName fields seen b rest
    | .negative n =>
      if n < Nat.pow 2 63 then readFields typeName fields seen b rest
      else .error (.mismatch key.kindName none "int64")
    | _ => .error (.mismatch key.kindName none "string")

/-- A record with the given fields. -/
def Reading.record {β : Type} (typeName : String) (zero : β) (fields : List (Field β)) :
    Reading β where
  typeName := typeName
  read i := do
    let b ← bare i
    match b with
    | .item (.map entries) => readFields typeName fields [] zero entries
    | .item .null => .ok zero
    | .item .undefined => .ok zero
    | _ => mismatch typeName b

/-- The message that bytes spell. -/
def Reading.decode {β : Type} (r : Reading β) (t : Bytes) : Except DecodeError β := do
  let item ← (Cbor.read t).mapError .read
  r.read item

end StackMachine.Cbor
