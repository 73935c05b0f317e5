import StackMachine.Text.Case
import StackMachine.Text.Query

/-!
# Media types

A media type is a name and parameters, each after a semicolon. The value of a parameter is a word or
a quotation. It can also be spelled with escapes under a starred name, or in numbered parts, which
are put together here.
-/

namespace StackMachine.Http

open Text

/-- A media type. -/
structure MediaType where
  name : Bytes
  parameters : List (Bytes × Bytes) := []
  deriving DecidableEq, Repr

namespace MediaType

/-- The bytes that have a meaning in media types. -/
def isSpecial (b : UInt8) : Bool := (utf8 "()<>@,;:\\\"/[]?=").contains b

/-- The bytes that words are made of. -/
def isWordByte (b : UInt8) : Bool := 0x20 < b && b < 0x7F && !isSpecial b

/-- The word at the start of a text, and what follows it. -/
def firstWord (t : Bytes) : Bytes × Bytes := (t.takeWhile isWordByte, t.dropWhile isWordByte)

/-- Whether a text is a name: a word, or two with a slash between them. -/
def isName (t : Bytes) : Bool :=
  let (first, rest) := firstWord t
  let (second, others) := firstWord (rest.drop 1)
  first != [] && (rest == [] || (rest.head? == some (ascii '/') && second != [] && others == []))

/-! ## Parameters -/

/-- The rest of a quotation and what follows it. A backslash in front of a byte with a meaning takes
the meaning away. -/
def quotation? : Bytes → Option (Bytes × Bytes)
  | [] => none
  | b :: rest =>
    if b = quoteMark then some ([], rest)
    else if b = 13 ∨ b = 10 then none
    else match rest with
      | [] => none
      | c :: more =>
        if b = backslash ∧ isSpecial c then (quotation? more).map fun (t, u) => (c :: t, u)
        else (quotation? (c :: more)).map fun (t, u) => (b :: t, u)

/-- The value at the start of a text, and what follows it. A word is not empty. -/
def value? (t : Bytes) : Option (Bytes × Bytes) :=
  if t.head? = some quoteMark then quotation? (t.drop 1)
  else match firstWord t with
    | ([], _) => none
    | found => some found

/-- What follows a mark at the start of a text, without blanks on both sides of the mark. -/
def afterMark? (mark : UInt8) (t : Bytes) : Option Bytes :=
  match stripLeft t with
  | b :: rest => if b = mark then some (stripLeft rest) else none
  | [] => none

/-- The parameter at the start of a text, and what follows it. -/
def parameter? (t : Bytes) : Option ((Bytes × Bytes) × Bytes) := do
  let (name, rest) := firstWord (← afterMark? (ascii ';') t)
  if name = [] then none
  else do
    let (value, rest) ← value? (← afterMark? (ascii '=') rest)
    some ((lowerAscii name, value), rest)

/-- The parameters of a text. A semicolon at the end opens none. Every parameter takes a byte, so
the length of the text is fuel enough. -/
def parameters? : (fuel : Nat) → Bytes → Option (List (Bytes × Bytes))
  | 0, t => if stripLeft t = [] then some [] else none
  | fuel + 1, t =>
    if stripLeft t = [] then some []
    else match parameter? t with
      | some (p, rest) => (parameters? fuel rest).map (p :: ·)
      | none => if strip t = [ascii ';'] then some [] else none

/-- Whether no parameter is given two values. -/
def isConsistent (ps : List (Bytes × Bytes)) : Bool :=
  ps.all fun p => ps.all fun q => p.1 != q.1 || p.2 == q.2

/-! ## Starred names -/

/-- The star, which marks a value with escapes and separates the number of a part. -/
def star : UInt8 := ascii '*'

/-- The apostrophe, which ends the character set and the language of a value. -/
def apostrophe : UInt8 := 39

/-- The text in a value that names its character set and language. -/
def extended? (value : Bytes) : Option Bytes :=
  match pieces apostrophe [] value with
  | charset :: _ :: first :: rest =>
    if lowerName charset = utf8 "us-ascii" ∨ lowerName charset = utf8 "utf-8" then
      (Percent.decode (Text.join [apostrophe] (first :: rest))).toOption
    else none
  | _ => none

/-- The texts of the numbered parts of a value, from a number on. -/
def numbered (ps : List (Bytes × Bytes)) (name : Bytes) : (fuel number : Nat) → List Bytes
  | 0, _ => []
  | fuel + 1, number =>
    let key := name ++ star :: decimal number
    match ps.lookup key with
    | some v => v :: numbered ps name fuel (number + 1)
    | none =>
      match ps.lookup (key ++ [star]) with
      | none => []
      | some v =>
        let part := if number = 0 then extended? v else (Percent.decode v).toOption
        part.getD [] :: numbered ps name fuel (number + 1)

/-- The value under a starred name. -/
def starred? (ps : List (Bytes × Bytes)) (name : Bytes) : Option Bytes :=
  match ps.lookup (name ++ [star]) with
  | some v => extended? v
  | none =>
    match numbered ps name ps.length 0 with
    | [] => none
    | parts => some parts.flatten

/-- Parameters with each starred name put in place of the plain one. -/
def assemble (ps : List (Bytes × Bytes)) : List (Bytes × Bytes) :=
  let names := (ps.map fun p => p.1.takeWhile (· ≠ star)).eraseDups
  names.filterMap fun name =>
    ((starred? ps name).or (ps.lookup name)).map fun value => (name, value)

/-! ## Media types -/

/-- The media type that a text spells. -/
def parse? (t : Bytes) : Option MediaType := do
  let name := strip (lowerName (t.takeWhile (· ≠ ascii ';')))
  let ps ← parameters? t.length (t.dropWhile (· ≠ ascii ';'))
  if isName name ∧ isConsistent ps then some { name, parameters := assemble ps } else none

end MediaType

end StackMachine.Http
